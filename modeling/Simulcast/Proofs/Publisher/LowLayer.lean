import Simulcast.Proofs.Activity
import Simulcast.Proofs.Publisher.Limits
import Simulcast.Proofs.Splits
import Simulcast.Proofs.Watchdog.Counters

/-!
# A low layer that is given up

A rescue switches the low layer of a sender off, and the watchdog remembers that it has to switch it
on again. In every tick the two stay in step, however many actions the tick has: the low layer is
off exactly if the watchdog owes its return.

The end of a connection breaks this. It makes the watchdog forget what it owes, while the sender is
told nothing but the ceilings, which switch no layer on. So the low layer stays off, although no one
is to bring it back, until the high layer is paused once more for long enough.

## Main definitions

* `Publisher.interventions` — what the watchdog does in the course of some operations
* `Publisher.ForgetsLow` — a low layer was given up when a connection ended, and it still is

## Main results

* `Publisher.run_low_inactive_iff` — when the low layer of a sender that never fails is off
* `Publisher.clear_forgets_low_layer` — a low layer that stays off
-/

namespace Simulcast

open Simulcast.Action (Kind)

/-! ### One tick -/

namespace Watchdog

variable {w : Watchdog}

/-- A tick with nothing but kicks leaves the low layer alone. After any other tick the low layer is
off exactly if the watchdog counts it as given up, whatever it was before. -/
theorem Counts.step_low (h : w.Counts 2) (s : OutboundSample) :
    ((∀ kind ∈ (w.step s).2, kind = .kick) ∧ (w.step s).1.lowDisabled = w.lowDisabled) ∨
      ((∃ kind ∈ (w.step s).2, kind ≠ .kick) ∧
        ∀ on, Kind.isOn .low on (w.step s).2 = !(w.step s).1.lowDisabled) := by
  obtain ⟨kicks, kinds, hstep, hkicks, hcases⟩ := h.step_cases s
  -- Kicks come first and switch nothing, so that only the other kinds matter.
  have hon : ∀ on, Kind.isOn .low on (w.step s).2 = Kind.isOn .low on kinds := by
    intro on
    rw [hstep, Kind.isOn_append, Kind.isOn_of_kicks hkicks]
  simp only [hon]
  rw [hstep]
  rcases hcases with ⟨rfl, hsame⟩ | ⟨rfl, hlow⟩ | ⟨rfl, hlow⟩ | ⟨rfl, -, hlow⟩ | ⟨rfl, -, hlow⟩
  · refine Or.inl ⟨?_, hsame⟩
    rw [List.append_nil]
    exact hkicks
  · exact Or.inr ⟨⟨.rescue, by simp, by simp⟩, fun on => by rw [hlow]; rfl⟩
  · exact Or.inr ⟨⟨.rescue, by simp, by simp⟩, fun on => by rw [hlow]; rfl⟩
  · exact Or.inr ⟨⟨.hardRescue, by simp, by simp⟩, fun on => by rw [hlow]; rfl⟩
  · exact Or.inr ⟨⟨.restoreLow, by simp, by simp⟩, fun on => by rw [hlow]; rfl⟩

end Watchdog

namespace Arbitrator

/-- Caps that are handed on are set by kicks. -/
theorem kind_of_mem_kicks {queue : List Task} {a : Action} (ha : a ∈ kicks queue) :
    a.kind = .kick := by
  obtain ⟨task, -, htask⟩ := List.mem_filterMap.1 ha
  cases task with
  | apply caps => rw [← Option.some.inj htask]
  | ack destination message => cases htask

end Arbitrator

namespace Publisher

variable {σ κ : Type} {p : Publisher σ κ}

/-! ### One operation -/

theorem counts_watched (h : p.watchdog.Counts 2) (call : Call) : (p.watched call).1.Counts 2 := by
  cases call with
  | receive payload source now => exact h
  | tick now sample =>
    cases sample with
    | none => exact h
    | some sample => exact h.step sample
  | clear => exact Watchdog.counts_ofCeilings _

/-- What an operation other than the end of a connection does about the low layer. -/
theorem watched_low (h : p.watchdog.Counts 2) {call : Call} (hcall : call ≠ .clear) :
    ((∀ a ∈ (p.watched call).2, a.kind = .kick) ∧
        (p.watched call).1.lowDisabled = p.watchdog.lowDisabled) ∨
      ((∃ a ∈ (p.watched call).2, a.kind ≠ .kick) ∧
        ∀ on, Kind.isOn .low on ((p.watched call).2.map Action.kind) =
          !(p.watched call).1.lowDisabled) := by
  cases call with
  | clear => exact absurd rfl hcall
  | receive payload source now => exact Or.inl ⟨List.forall_mem_nil _, rfl⟩
  | tick now sample =>
    cases sample with
    | none => exact Or.inl ⟨List.forall_mem_nil _, rfl⟩
    | some sample =>
      -- The actions of a tick are its kinds together with the caps they set.
      have hkinds : (p.watched (.tick now (some sample))).2.map Action.kind =
          (p.watchdog.step sample).2 := by
        change ((p.watchdog.step sample).2.map _).map Action.kind = _
        rw [List.map_map]
        exact List.map_id _
      have hlow := h.step_low sample
      rw [← hkinds] at hlow
      rcases hlow with ⟨hall, hsame⟩ | ⟨⟨kind, hkind, hne⟩, hon⟩
      · exact Or.inl ⟨List.forall_mem_map.1 hall, hsame⟩
      · obtain ⟨a, ha, rfl⟩ := List.mem_map.1 hkind
        exact Or.inr ⟨⟨a, ha, hne⟩, hon⟩

variable [Sender σ] [Channel κ] {held : σ → Parameters} {good : σ → Prop} {l : Layer}

theorem step_watchdog (h : p.Settled) (call : Call) :
    (p.step call).watchdog = (p.watched call).1 := by
  rw [step_eq h]

/-- Whether a layer is on after an operation is up to the watchdog. -/
theorem active_step (h : Sender.Holds held) (hfails : Sender.NeverFails good) (hp : p.Settled)
    (hgood : good p.sender) {call : Call} {e : Encoding}
    (he : (held (p.step call).sender).encoding? l = some e) :
    ∃ before, (held p.sender).encoding? l = some before ∧
      e.active = Kind.isOn l before.active ((p.watched call).2.map Action.kind) := by
  rw [step_eq hp] at he
  rw [h.attemptAll_of_good hfails hgood, Action.encoding?_foldl_apply] at he
  obtain ⟨before, hbefore, rfl⟩ := Option.map_eq_some_iff.1 he
  refine ⟨before, hbefore, ?_⟩
  rw [Action.active_foldl_change, actions, List.map_append, Kind.isOn_append]
  congr 1
  -- What the arbitrator hands on are limits.
  apply Kind.isOn_of_kicks
  exact List.forall_mem_map.2 fun a ha => Arbitrator.kind_of_mem_kicks ha

/-! ### Several operations -/

/-- What the watchdog does in the course of some operations. -/
def interventions (p : Publisher σ κ) : List Call → List Action
  | [] => []
  | call :: calls => (p.watched call).2 ++ (p.step call).interventions calls

theorem interventions_append_singleton (p : Publisher σ κ) (calls : List Call) (call : Call) :
    p.interventions (calls ++ [call]) =
      p.interventions calls ++ ((p.run calls).watched call).2 := by
  induction calls generalizing p with
  | nil => simp [interventions, run]
  | cons first calls ih =>
    rw [List.cons_append, interventions, ih, interventions, List.append_assoc]
    rfl

/-- A connection ended while the low layer was given up, and the watchdog has done nothing but kick
since then. -/
def ForgetsLow (start : Publisher σ κ) (calls : List Call) : Prop :=
  ∃ before after, calls = before ++ .clear :: after ∧
    (start.run before).watchdog.lowDisabled = true ∧
    ∀ a ∈ (start.run (before ++ [.clear])).interventions after, a.kind = .kick

variable {start : Publisher σ κ} {calls : List Call}

theorem not_forgetsLow_nil : ¬ start.ForgetsLow [] := by
  rintro ⟨before, after, heq, -⟩
  simp at heq

theorem run_clear (start : Publisher σ κ) (before after : List Call) :
    (start.run (before ++ [.clear])).run after = start.run (before ++ .clear :: after) := by
  simp [run]

/-- What is forgotten stays so as long as there are only kicks, and the end of a connection makes
something be forgotten if the low layer is given up. -/
theorem forgetsLow_append_singleton (start : Publisher σ κ) (calls : List Call) (call : Call) :
    start.ForgetsLow (calls ++ [call]) ↔
      (call = .clear ∧ (start.run calls).watchdog.lowDisabled = true) ∨
        (start.ForgetsLow calls ∧
          ∀ a ∈ ((start.run calls).watched call).2, a.kind = .kick) := by
  constructor
  · rintro ⟨before, after, heq, hlow, hkicks⟩
    rcases append_singleton_eq_append_cons_iff.1 heq with ⟨-, rfl, hcall⟩ | ⟨rest, rfl, rfl⟩
    · exact Or.inl ⟨hcall, hlow⟩
    · -- The new operation comes after the end of the connection, and so do its actions.
      rw [interventions_append_singleton, run_clear] at hkicks
      exact Or.inr ⟨⟨before, rest, rfl, hlow, fun a ha => hkicks a (List.mem_append_left _ ha)⟩,
        fun a ha => hkicks a (List.mem_append_right _ ha)⟩
  · rintro (⟨rfl, hlow⟩ | ⟨⟨before, after, rfl, hlow, hkicks⟩, hnow⟩)
    · exact ⟨calls, [], rfl, hlow, List.forall_mem_nil _⟩
    · refine ⟨before, after ++ [call], by simp, hlow, fun a ha => ?_⟩
      rw [interventions_append_singleton, run_clear] at ha
      rcases List.mem_append.1 ha with hold | hnew
      · exact hkicks a hold
      · exact hnow a hnew

theorem counts_run (hstart : start.Settled) (hcounts : start.watchdog.Counts 2)
    (calls : List Call) : (start.run calls).watchdog.Counts 2 := by
  induction calls using List.reverseRecOn with
  | nil => exact hcounts
  | append_singleton calls call ih =>
    rw [run_append_singleton, step_watchdog (hstart.run calls)]
    exact counts_watched ih call

theorem low_inactive_iff_of_enabled (h : Sender.Holds held) (hfails : Sender.NeverFails good)
    (hstart : start.Settled) (hgood : good start.sender) (hcounts : start.watchdog.Counts 2)
    (henabled : start.watchdog.lowDisabled = false)
    (hactive : ∀ e, (held start.sender).encoding? .low = some e → e.active = true)
    (calls : List Call) {e : Encoding}
    (he : (held (start.run calls).sender).encoding? .low = some e) :
    e.active = false ↔
      (start.run calls).watchdog.lowDisabled = true ∨ start.ForgetsLow calls := by
  induction calls using List.reverseRecOn generalizing e with
  | nil =>
    rw [hactive e he]
    refine iff_of_false (by simp) ?_
    rintro (hlow | hforgets)
    · exact absurd (henabled.symm.trans hlow) (by simp)
    · exact not_forgetsLow_nil hforgets
  | append_singleton calls call ih =>
    have hsettled := hstart.run calls
    rw [run_append_singleton] at he ⊢
    obtain ⟨before, hbefore, hafter⟩ :=
      active_step h hfails hsettled (good_run h hfails hstart hgood calls) he
    have hold := ih hbefore
    rw [forgetsLow_append_singleton, step_watchdog hsettled, hafter]
    by_cases hcall : call = .clear
    · -- The layer stays as it was, while all that the watchdog owed is forgotten.
      subst hcall
      change before.active = false ↔ false = true ∨ _
      rw [hold]
      simp [watched]
    · rcases watched_low (counts_run hstart hcounts calls) hcall with
        ⟨hkicks, hsame⟩ | ⟨⟨a, ha, hne⟩, hon⟩
      · rw [Kind.isOn_of_kicks (List.forall_mem_map.2 hkicks), hold, hsame]
        simp only [hcall, false_and, false_or, and_iff_left hkicks]
      · -- The watchdog did something about the layer, so nothing that was forgotten lasts.
        have hnot : ¬ ∀ a ∈ ((start.run calls).watched call).2, a.kind = .kick :=
          fun hall => hne (hall a ha)
        rw [hon]
        simp [hcall, hnot]

/-- After any operations, the low layer of a sender that never fails and that began with all layers
on is off in two cases only: the watchdog owes its return, or a connection ended while it did and
nothing has been done about the layer since. -/
theorem run_low_inactive_iff (h : Sender.Holds held) (hfails : Sender.NeverFails good)
    (identity : String) (config : Config) (sender : σ) (hsender : good sender)
    (hactive : ∀ e ∈ (held sender).encodings, e.active = true) (channel : κ) (calls : List Call) :
    let start := ofConfig identity config sender channel
    let p := start.run calls
    ∀ e, (held p.sender).encoding? .low = some e →
      (e.active = false ↔ p.watchdog.lowDisabled = true ∨ start.ForgetsLow calls) := by
  intro start p e he
  have hlow : ∀ e, (held sender).encoding? .low = some e → e.active = true := by
    intro e he
    obtain ⟨i, -, hi⟩ := Option.bind_eq_some_iff.1 he
    exact hactive e (List.mem_of_getElem? hi)
  have hstart : start.Settled := settled_ofConfig identity config sender channel
  have hcounts : start.watchdog.Counts 2 := Watchdog.counts_ofCeilings config.ceilings
  exact low_inactive_iff_of_enabled h hfails hstart hsender hcounts rfl hlow calls he

/-! ### The end of a connection during a rescue -/

/-- A publisher over a sender in memory. -/
def fresh : Publisher MemorySender MemoryChannel :=
  ofConfig "publisher" {} { parameters := .simulcast } {}

/-- The high layer is paused until there is a rescue, and then the connection ends. -/
def rescueAndClear : List Call :=
  let paused : OutboundSample :=
    ⟨none, .kilo 2500, [⟨some Layer.high.rid, 0, .bandwidth⟩, ⟨some Layer.low.rid, 15, .none⟩]⟩
  [.tick 0 (some paused), .tick 1000 (some paused), .tick 2000 (some paused), .clear]

theorem active_of_mem_fresh : ∀ e ∈ fresh.sender.parameters.encodings, e.active = true := by
  decide +kernel

/-- The low layer is still off, but the watchdog does not know. -/
theorem clear_forgets_low_layer :
    fresh.sender.IsWilling ∧ (∀ e ∈ fresh.sender.parameters.encodings, e.active = true) ∧
      ∃ e, (fresh.run rescueAndClear).sender.parameters.encoding? .low = some e ∧
        e.active = false ∧ (fresh.run rescueAndClear).watchdog.lowDisabled = false := by
  refine ⟨⟨rfl, rfl⟩, active_of_mem_fresh, ?_⟩
  refine ⟨⟨some Layer.low.rid, some (.kilo 1500), none, false⟩, ?_, rfl, ?_⟩
  · decide +kernel
  · decide +kernel

/-- There is no other way for that to happen: a rescue was forgotten. -/
theorem forgetsLow_rescueAndClear :
    fresh.sender.IsWilling ∧ (∀ e ∈ fresh.sender.parameters.encodings, e.active = true) ∧
      fresh.ForgetsLow rescueAndClear := by
  have hwilling : fresh.sender.IsWilling := ⟨rfl, rfl⟩
  have he : (fresh.run rescueAndClear).sender.parameters.encoding? .low =
      some ⟨some Layer.low.rid, some (.kilo 1500), none, false⟩ := by
    decide +kernel
  have henabled : (fresh.run rescueAndClear).watchdog.lowDisabled = false := by decide +kernel
  have hiff := run_low_inactive_iff MemorySender.holds MemorySender.neverFails "publisher" {}
    { parameters := .simulcast } hwilling active_of_mem_fresh ({} : MemoryChannel) rescueAndClear
  refine ⟨hwilling, active_of_mem_fresh, ?_⟩
  rw [fresh] at he henabled ⊢
  have hcases := (hiff _ he).1 rfl
  rw [henabled] at hcases
  exact hcases.resolve_left Bool.false_ne_true

end Publisher

end Simulcast
