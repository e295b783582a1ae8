import Simulcast.Proofs.Arbitration.History
import Simulcast.Proofs.Endpoint.Memory
import Simulcast.Proofs.Publisher.Calls

/-!
# The sender runs at the caps in force

An operation that changes the caps in force hands them on to the sender, and whatever the watchdog
adds carries the same caps. So a sender that never fails runs at the caps in force from the moment
any caps were set, through expiries, rescues and restarts. Before that moment only the watchdog
writes to it, and what it writes are the ceilings.

## Main definitions

* `Publisher.Touched` — caps have been set on the sender

## Main results

* `Publisher.limit?_step` — a limit after an operation is the cap in force, or nothing was handed on
* `Publisher.run_limits_eq_effective` — the limits of a sender that never fails
-/

namespace Simulcast.Publisher

variable {σ κ : Type} [Sender σ] [Channel κ] {p : Publisher σ κ} {held : σ → Parameters}
  {good : σ → Prop} {l : Layer} {m : Option Bitrate}

/-! ### The arbitrator of a publisher -/

theorem step_arbitrator (h : p.Settled) (call : Call) :
    (p.step call).arbitrator = { p.decided call with queue := [] } := by
  rw [step_eq h]

theorem tracks_step {decisions : List Arbitrator.Call} (h : p.Settled)
    (htracks : p.arbitrator.Tracks decisions) (call : Call) :
    (p.step call).arbitrator.Tracks (decisions ++ call.decision?.toList) := by
  rw [step_arbitrator h, decided]
  cases call.decision? with
  | none => simpa using htracks.drain
  | some c => exact (htracks.step c).drain

/-- The arbitrator of a publisher tracks the requests among the payloads, the ticks and the ends of
connections. -/
theorem tracks_run {decisions : List Arbitrator.Call} (h : p.Settled)
    (htracks : p.arbitrator.Tracks decisions) (calls : List Call) :
    (p.run calls).arbitrator.Tracks (decisions ++ calls.filterMap Call.decision?) := by
  induction calls using List.reverseRecOn with
  | nil =>
    rw [List.filterMap_nil, List.append_nil]
    exact htracks
  | append_singleton calls call ih =>
    rw [run_append_singleton]
    have hstep := tracks_step (h.run calls) ih call
    rw [List.append_assoc] at hstep
    convert hstep using 2
    rw [List.filterMap_append]
    cases hdecision : call.decision? <;> simp [hdecision]

/-! ### One operation -/

/-- A limit after an operation is the cap in force then, unless it is the limit of before and the
operation had no caps to hand on. -/
theorem limit?_step (hp : p.Settled) {call : Call}
    (hobeys : Sender.Obeys held p.sender (p.actions call))
    (hm : (held (p.step call).sender).limit? l = some m) :
    m = some ((p.step call).arbitrator.effective.get l) ∨
      ((held p.sender).limit? l = some m ∧
        (p.step call).arbitrator.applied = p.arbitrator.applied ∧ call ≠ .clear) := by
  have hlimit := Sender.limit?_attemptAll_of_obeys (l := l) hobeys
    fun a ha => caps_of_mem_actions hp ha
  -- All actions carry the caps in force, so that it does not matter which came last.
  rw [step_eq hp] at hm ⊢
  rw [hlimit] at hm
  by_cases hsets : ∃ a ∈ p.actions call, a.kind.sets l = true
  · rw [if_pos hsets] at hm
    obtain ⟨-, -, rfl⟩ := Option.map_eq_some_iff.1 hm
    exact Or.inl rfl
  · rw [if_neg hsets] at hm
    rcases kicks_decided hp call with ⟨-, happlied, hclear⟩ | hkick
    · exact Or.inr ⟨hm, happlied, hclear⟩
    · -- Caps that are handed on set every limit.
      refine absurd ⟨⟨.kick, (p.decided call).effective⟩, ?_, rfl⟩ hsets
      rw [actions, hkick]
      simp

/-! ### All operations -/

/-- Caps have been set on the sender: there was a time when some were in force, or a connection
ended. -/
def Touched (start : Publisher σ κ) (calls : List Call) : Prop :=
  .clear ∈ calls ∨ ∃ earlier, earlier <+: calls ∧ (start.run earlier).arbitrator.applied ≠ none

theorem applied_eq_none_of_not_touched {start : Publisher σ κ} {calls : List Call}
    (h : ¬ Touched start calls) : (start.run calls).arbitrator.applied = none := by
  by_contra hsome
  exact h (Or.inr ⟨calls, List.prefix_refl calls, hsome⟩)

theorem not_touched_append_singleton {start : Publisher σ κ} {calls : List Call} {call : Call}
    (h : ¬ Touched start calls) (hclear : call ≠ .clear)
    (happlied : (start.run (calls ++ [call])).arbitrator.applied = none) :
    ¬ Touched start (calls ++ [call]) := by
  rintro (hmem | ⟨earlier, hprefix, hsome⟩)
  · rcases List.mem_append.1 hmem with hold | hnew
    · exact h (Or.inl hold)
    · exact hclear (List.mem_singleton.1 hnew).symm
  · rcases List.prefix_concat_iff.1 hprefix with rfl | hold
    · exact hsome happlied
    · exact h (Or.inr ⟨earlier, hold, hsome⟩)

theorem ceilings_run (h : p.Settled) (calls : List Call) :
    (p.run calls).arbitrator.ceilings = p.arbitrator.ceilings := by
  induction calls using List.reverseRecOn with
  | nil => rfl
  | append_singleton calls call ih =>
    rw [run_append_singleton, step_arbitrator (h.run calls), ← ih]
    exact decided_ceilings _ call

theorem good_run (h : Sender.Holds held) (hfails : Sender.NeverFails good) (hp : p.Settled)
    (hgood : good p.sender) (calls : List Call) : good (p.run calls).sender := by
  induction calls using List.reverseRecOn with
  | nil => exact hgood
  | append_singleton calls call ih =>
    rw [run_append_singleton, step_eq (hp.run calls)]
    exact (h.obeys_of_good hfails ih).2

theorem effective_eq_of_applied_eq {a b : Arbitrator} (happlied : a.applied = b.applied)
    (hceilings : a.ceilings = b.ceilings) : a.effective = b.effective := by
  rw [Arbitrator.effective, Arbitrator.effective, happlied, hceilings]

theorem limit?_run (h : Sender.Holds held) (hfails : Sender.NeverFails good) {start : Publisher σ κ}
    (hstart : start.Settled) (hgood : good start.sender)
    (hfresh : start.arbitrator.applied = none) (calls : List Call)
    (hm : (held (start.run calls).sender).limit? l = some m) :
    (m = some ((start.run calls).arbitrator.effective.get l)) ∨
      (¬ Touched start calls ∧ (held start.sender).limit? l = some m) := by
  induction calls using List.reverseRecOn generalizing m with
  | nil =>
    refine Or.inr ⟨?_, hm⟩
    rintro (hmem | ⟨earlier, hprefix, hsome⟩)
    · cases hmem
    · obtain rfl := List.prefix_nil.1 hprefix
      exact hsome hfresh
  | append_singleton calls call ih =>
    have hsettled := hstart.run calls
    have hobeys : Sender.Obeys held (start.run calls).sender ((start.run calls).actions call) :=
      (h.obeys_of_good hfails (good_run h hfails hstart hgood calls)).1
    rw [run_append_singleton] at hm ⊢
    rcases limit?_step hsettled hobeys hm with hnow | ⟨hbefore, happlied, hclear⟩
    · exact Or.inl hnow
    · -- Nothing was handed on, so what was in force before still is.
      have hceilings : ((start.run calls).step call).arbitrator.ceilings =
          (start.run calls).arbitrator.ceilings := by
        rw [step_arbitrator hsettled]
        exact decided_ceilings _ call
      rcases ih hbefore with heffective | ⟨hfresh, hinitial⟩
      · exact Or.inl (by rw [effective_eq_of_applied_eq happlied hceilings]; exact heffective)
      · refine Or.inr ⟨not_touched_append_singleton hfresh hclear ?_, hinitial⟩
        rw [run_append_singleton, happlied]
        exact applied_eq_none_of_not_touched hfresh

/-- After any operations, each layer of a sender that never fails has the cap in force as its limit
if any caps have been set on the sender, and then no receiver gets more than it asked for. Before
that it has its initial limit or its ceiling. -/
theorem run_limits_eq_effective (h : Sender.Holds held) (hfails : Sender.NeverFails good)
    (identity : String) (config : Config) (hceilings : config.ceilings.IsNumber) (sender : σ)
    (hsender : good sender) (channel : κ) (calls : List Call) :
    let start := ofConfig identity config sender channel
    let p := start.run calls
    ∀ l e, (held p.sender).encoding? l = some e →
      ((.clear ∈ calls ∨
          ∃ earlier, earlier <+: calls ∧ (start.run earlier).arbitrator.applied ≠ none) →
        e.maxBitrate = some (p.arbitrator.effective.get l) ∧
          ∀ name entry, p.arbitrator.entries.get? name = some entry →
            p.arbitrator.effective.get l ≤ entry.caps.get l) ∧
      ((∀ earlier, earlier <+: calls → (start.run earlier).arbitrator.applied = none) →
        (held sender).limit? l = some e.maxBitrate ∨
          e.maxBitrate = some (config.ceilings.get l)) := by
  intro start p l e he
  have hstart : start.Settled := settled_ofConfig identity config sender channel
  have htracks : p.arbitrator.Tracks ([] ++ calls.filterMap Call.decision?) :=
    tracks_run hstart (Arbitrator.tracks_ofConfig identity hceilings) calls
  have hlimit : (held p.sender).limit? l = some e.maxBitrate := by
    rw [Parameters.limit?, he, Option.map_some]
  have hcases := limit?_run h hfails hstart hsender rfl calls hlimit
  constructor
  · intro htouched
    rcases hcases with heffective | ⟨hfresh, -⟩
    · refine ⟨heffective, fun name entry hget => ?_⟩
      exact htracks.effective_spec.2.le entry.caps (Or.inr ⟨name, entry, hget, rfl⟩) l
    · exact absurd htouched hfresh
  · intro hnever
    rcases hcases with heffective | ⟨-, hinitial⟩
    · -- Only the watchdog has written, and without caps in force it writes the ceilings.
      refine Or.inr ?_
      have hnone : p.arbitrator.applied = none := hnever calls (List.prefix_refl calls)
      have hc : p.arbitrator.ceilings = config.ceilings := ceilings_run hstart calls
      rw [heffective, Arbitrator.effective, hnone, Option.getD_none, hc]
    · exact Or.inl hinitial

/-- After the request of one receiver a sender in memory runs at what that receiver asked for, each of its three
encodings at the rate for its layer. -/
theorem limits_follow_request :
    let start : Publisher MemorySender MemoryChannel :=
      ofConfig "publisher" {} { parameters := .simulcast } {}
    let caps : Caps := ⟨.kilo 2000, .kilo 660, .kilo 200⟩
    let payload := (Message.request (.ofCaps caps .congestion 0 "receiver")).encode
    let p := start.run [.receive payload "receiver" 5]
    Caps.standard.IsNumber ∧ start.sender.IsWilling ∧ p.arbitrator.effective = caps ∧
      p.sender.parameters.encodings =
        [⟨some (.ofString "f"), some (.kilo 2000), none, true⟩,
          ⟨some (.ofString "h"), some (.kilo 660), none, true⟩,
          ⟨some (.ofString "q"), some (.kilo 200), none, true⟩] ∧
      ∀ l, ∃ e, p.sender.parameters.encoding? l = some e ∧ e.maxBitrate = some (caps.get l) := by
  intro start caps payload p
  have hceilings : Caps.standard.IsNumber := by
    intro l
    cases l <;> decide +kernel
  have hwilling : start.sender.IsWilling := ⟨rfl, rfl⟩
  have happlied : p.arbitrator.applied = some caps := by decide +kernel
  have heffective : p.arbitrator.effective = caps := by
    rw [Arbitrator.effective, happlied, Option.getD_some]
  refine ⟨hceilings, hwilling, heffective, by decide +kernel, fun l => ?_⟩
  obtain ⟨e, he⟩ : ∃ e, p.sender.parameters.encoding? l = some e :=
    Option.isSome_iff_exists.1 (by cases l <;> decide +kernel)
  have htouched : p.arbitrator.applied ≠ none := by
    rw [happlied]
    simp
  refine ⟨e, he, ?_⟩
  rw [← heffective]
  exact ((run_limits_eq_effective MemorySender.holds MemorySender.neverFails "publisher" {}
    hceilings { parameters := .simulcast } hwilling ({} : MemoryChannel)
    [.receive payload "receiver" 5] l e he).1 (Or.inr ⟨_, List.prefix_refl _, htouched⟩)).1

end Simulcast.Publisher
