import Mathlib.Data.List.Induction
import Simulcast.Proofs.Estimator.Cap

/-!
# What the operations of an estimator do

A tick is of one of three kinds. A congested tick lowers the cap and asks for it when it is time to.
A tick without congestion takes the cap back if there is one, all at once, and otherwise only goes
into the averages. All that an estimator keeps besides its averages follows from the kind of the
last tick: its phase, whether there is a cap, and whether a request is outstanding.

The steps towards a higher cap and the two reasons that belong to them are therefore for nothing.
They would need a capped estimator that has already seen a tick without congestion, and there is
none: the count of such ticks is set to zero by the very tick that puts the cap in force. That the
count may overflow afterwards does no harm, since it is not looked at without a cap.

## Main definitions

* `Estimator.Tick`, `Estimator.Call` — one tick, and any operation
* `Estimator.tick`, `Estimator.step`, `Estimator.run` — one tick, one operation, and several
* `Estimator.IsCoherent` — everything that the kind of the last tick says about the state
* `Estimator.DecidesOn` — the decision of a tick follows from an assessment

## Main results

* `Estimator.tick_of_congested`, `Estimator.IsCoherent.tick_of_relieved`,
  `Estimator.IsCoherent.tick_of_quiet` — the three kinds of tick
* `Estimator.run_decidesOn` — a tick decides on the assessment of the history with its own sample
* `Estimator.run_tick_follows_loss` — the state after any operations and a tick
-/

namespace Simulcast.Estimator

variable {e : Estimator} {a : Assessment} {identity : String} {now : Time}

/-! ### Operations -/

/-- What an estimator is given in a tick. -/
structure Tick where
  sample : InboundSample
  /-- The identity that requests are signed with. -/
  identity : String
  now : Time
  deriving DecidableEq

/-- An operation of an estimator. -/
inductive Call where
  | update (t : Tick)
  | acknowledge
  | reset
  deriving DecidableEq

/-- The state after a tick, and what the tick leads to. -/
def tick (e : Estimator) (t : Tick) : Estimator × Decision :=
  (e.update t.sample t.identity t.now).value

/-- The state after an operation. -/
def step (e : Estimator) : Call → Estimator
  | .update t => (e.tick t).1
  | .acknowledge => e.acknowledge
  | .reset => e.reset

/-- The state after some operations. -/
def run (e : Estimator) (calls : List Call) : Estimator := calls.foldl step e

theorem run_append_singleton (e : Estimator) (calls : List Call) (call : Call) :
    e.run (calls ++ [call]) = (e.run calls).step call := by
  simp only [run, List.foldl_append, List.foldl_cons, List.foldl_nil]

theorem step_config (e : Estimator) (call : Call) : (e.step call).config = e.config := by
  cases call with
  | update t => exact update_config e t.sample t.identity t.now
  | acknowledge => rfl
  | reset => rfl

@[simp] theorem run_config (e : Estimator) (calls : List Call) :
    (e.run calls).config = e.config := by
  induction calls using List.reverseRecOn with
  | nil => rfl
  | append_singleton calls call ih => rw [run_append_singleton, step_config, ih]

/-! ### The parts of a tick -/

/-- What the sample of a tick says about the loss, together with the samples before it. -/
def assessed (e : Estimator) (sample : InboundSample) : Assessment :=
  assess e.config (e.history.push sample.measurement) sample.measurement.lost

theorem judged_of_congested {sample : InboundSample} (h : (e.assessed sample).congested = true) :
    e.judged sample = { e with
      history := e.history.push sample.measurement, capHigh := e.loweredCap (e.assessed sample)
      capped := true, phase := .backingOff, cleanTicks := 0 } := by
  unfold judged
  exact if_pos h

theorem judged_of_clear {sample : InboundSample} (h : (e.assessed sample).congested = false) :
    e.judged sample = { e with history := e.history.push sample.measurement }.ease.value := by
  unfold judged
  exact if_neg (Bool.eq_false_iff.1 h)

/-- With a cap, a request is made when it is time for it. -/
theorem emit_of_capped (h : e.capped = true) (a : Assessment) (identity : String) (now : Time) :
    (e.emit a identity now).value =
      if e.isDue now then
        ({ e with lastRequest := some now, firstRequest := some (e.firstRequest.getD now) },
          some (.ofCaps (.ofHigh e.capHigh) (e.reason a) (roundedLoss a.lossRate) identity))
      else (e, none) := by
  unfold emit
  rw [if_pos h]
  split <;> rfl

/-- Without a cap, a request is made only if there is one to be taken back. -/
theorem emit_of_uncapped (h : e.capped = false) (a : Assessment) (identity : String) (now : Time) :
    (e.emit a identity now).value =
      if e.lastRequest.isSome then
        ({ e with lastRequest := none, firstRequest := none },
          some (.ofCaps e.config.ceilings .restore 0 identity))
      else (e, none) := by
  unfold emit
  rw [if_neg (Bool.eq_false_iff.1 h)]
  split <;> rfl

theorem checkAck_eq (e : Estimator) (now : Time) :
    (e.checkAck now).value = { e with fallback := e.fallback || e.isOverdue now } := by
  unfold checkAck
  cases hoverdue : e.isOverdue now with
  | false => simp
  | true => simp

theorem isOverdue_of_uncapped (h : e.capped = false) (now : Time) : e.isOverdue now = false := by
  unfold isOverdue
  split
  · rfl
  · simp [h]

/-- A congested tick asks for caps because of congestion and for no other reason. -/
theorem reason_of_congested (h : a.congested = true) :
    e.reason a = if a.severe then .severe else .congestion := by
  unfold reason
  rw [h]
  rfl

/-- A tick judges the sample, makes a request if there is one to be made, and looks for an
acknowledgement. -/
theorem tick_eq {t : Tick} {judged asked : Estimator} {outbound : Option CapRequest}
    (hjudged : e.judged t.sample = judged)
    (hemit : (judged.emit (e.assessed t.sample) t.identity t.now).value = (asked, outbound)) :
    let fallback := asked.fallback || asked.isOverdue t.now
    e.tick t = ({ asked with fallback },
      { outbound, lockHigh := asked.capped, fallback, capHigh := asked.capHigh,
        capped := asked.capped }) := by
  rw [← hjudged, assessed] at hemit
  rw [tick, update_value, hemit]
  dsimp only
  rw [checkAck_eq]

/-- Without a cap no acknowledgement is missed. -/
theorem tick_eq_of_uncapped {t : Tick} {judged asked : Estimator} {outbound : Option CapRequest}
    (hjudged : e.judged t.sample = judged)
    (hemit : (judged.emit (e.assessed t.sample) t.identity t.now).value = (asked, outbound))
    (h : asked.capped = false) :
    e.tick t = (asked,
      { outbound, lockHigh := false, fallback := asked.fallback, capHigh := asked.capHigh,
        capped := false }) := by
  rw [tick_eq hjudged hemit, isOverdue_of_uncapped h, Bool.or_false, ← h]

/-! ### The three kinds of tick -/

/-- What the kind of the last tick says about the state. -/
structure IsCoherent (e : Estimator) : Prop where
  phase : e.phase = if e.capped then .backingOff else .idle
  cleanTicks : e.capped = true → e.cleanTicks = 0
  capHigh : e.capped = false → e.capHigh = e.config.ceilings.high
  lastRequest : e.lastRequest.isSome = e.capped
  firstRequest : e.firstRequest.isSome = e.capped

theorem isCoherent_ofConfig (config : Config) : (ofConfig config).IsCoherent where
  phase := rfl
  cleanTicks h := by cases h
  capHigh _ := rfl
  lastRequest := rfl
  firstRequest := rfl

/-- A congested tick lowers the cap, and asks for it if that is due. -/
theorem tick_of_congested {t : Tick} (h : (e.assessed t.sample).congested = true) :
    let a := e.assessed t.sample
    let lowered : Estimator := { e with
      history := e.history.push t.sample.measurement, capHigh := e.loweredCap a, capped := true
      phase := .backingOff, cleanTicks := 0 }
    let asked : Estimator := if e.isDue t.now then { lowered with
      lastRequest := some t.now, firstRequest := some (e.firstRequest.getD t.now) } else lowered
    let fallback := e.fallback || asked.isOverdue t.now
    e.tick t =
      ({ asked with fallback },
        { outbound := if e.isDue t.now then
            some (.ofCaps (.ofHigh (e.loweredCap a)) (if a.severe then .severe else .congestion)
              (roundedLoss a.lossRate) t.identity)
          else none
          lockHigh := true, fallback, capHigh := e.loweredCap a, capped := true }) := by
  intro a lowered asked fallback
  have hjudged : e.judged t.sample = lowered := judged_of_congested h
  have hreason : lowered.reason a = if a.severe then .severe else .congestion :=
    reason_of_congested h
  have hdue : lowered.isDue t.now = e.isDue t.now := rfl
  have hemit := emit_of_capped (e := lowered) rfl a t.identity t.now
  rw [hreason, hdue] at hemit
  by_cases hnow : e.isDue t.now = true
  · rw [if_pos hnow] at hemit
    simp only [asked, fallback, hnow, if_true]
    exact tick_eq hjudged hemit
  · rw [if_neg hnow] at hemit
    simp only [asked, fallback, hnow]
    exact tick_eq hjudged hemit

/-- The first tick without congestion takes the cap back. -/
theorem IsCoherent.tick_of_relieved (h : e.IsCoherent) {t : Tick}
    (hclear : (e.assessed t.sample).congested = false) (hcapped : e.capped = true) :
    e.tick t =
      ({ e with
          history := .empty, capHigh := e.config.ceilings.high, capped := false, phase := .idle
          cleanTicks := 1, lastRequest := none, firstRequest := none },
        { outbound := some (.ofCaps e.config.ceilings .restore 0 t.identity)
          lockHigh := false, fallback := e.fallback, capHigh := e.config.ceilings.high
          capped := false }) := by
  -- The last tick was a congested one, so that this is the first of its kind.
  have hphase : e.phase = .backingOff := by rw [h.phase, hcapped, if_pos rfl]
  have hjudged : e.judged t.sample = { e with
      history := .empty, capHigh := e.config.ceilings.high, capped := false, phase := .idle
      cleanTicks := 1 } := by
    rw [judged_of_clear hclear]
    simp [ease, hcapped, hphase, h.cleanTicks hcapped, uncap]
  have houtstanding : e.lastRequest.isSome = true := h.lastRequest.trans hcapped
  refine tick_eq_of_uncapped hjudged ?_ rfl
  rw [emit_of_uncapped rfl]
  exact if_pos houtstanding

/-- Any other tick without congestion is only remembered. -/
theorem IsCoherent.tick_of_quiet (h : e.IsCoherent) {t : Tick}
    (hclear : (e.assessed t.sample).congested = false) (hcapped : e.capped = false) :
    e.tick t =
      ({ e with
          history := e.history.push t.sample.measurement, cleanTicks := e.cleanTicks + 1 },
        { outbound := none
          lockHigh := false, fallback := e.fallback, capHigh := e.config.ceilings.high
          capped := false }) := by
  have hjudged : e.judged t.sample = { e with
      history := e.history.push t.sample.measurement, cleanTicks := e.cleanTicks + 1 } := by
    rw [judged_of_clear hclear]
    simp [ease, hcapped]
  have hnothing : ¬ e.lastRequest.isSome = true := by
    rw [h.lastRequest, hcapped]
    exact Bool.false_ne_true
  rw [← h.capHigh hcapped]
  refine tick_eq_of_uncapped hjudged ?_ hcapped
  rw [emit_of_uncapped (by exact hcapped)]
  exact if_neg hnothing

/-! ### Several operations -/

/-- Without a request that is outstanding, it is always time for one. -/
theorem IsCoherent.isDue_of_uncapped (h : e.IsCoherent) (hcapped : e.capped = false) (now : Time) :
    e.isDue now = true := by
  have hnone : e.lastRequest = none := by
    rw [← Option.not_isSome_iff_eq_none, h.lastRequest, hcapped]
    exact Bool.false_ne_true
  rw [isDue, hnone]

/-- After a congested tick a request is outstanding. -/
theorem IsCoherent.after_congested (h : e.IsCoherent) {t : Tick}
    (hcongested : (e.assessed t.sample).congested = true) : (e.tick t).1.IsCoherent := by
  rw [Estimator.tick_of_congested hcongested]
  by_cases hdue : e.isDue t.now = true
  · simp only [hdue, if_true]
    exact ⟨rfl, fun _ => rfl, by rintro ⟨⟩, rfl, rfl⟩
  · -- It was too early for another one, so there was one already.
    have hcapped : e.capped = true := by
      by_contra hcapped
      exact hdue (h.isDue_of_uncapped (Bool.eq_false_iff.2 hcapped) t.now)
    simp only [hdue]
    exact ⟨rfl, fun _ => rfl, by rintro ⟨⟩, h.lastRequest.trans hcapped,
      h.firstRequest.trans hcapped⟩

theorem IsCoherent.tick (h : e.IsCoherent) (t : Tick) : (e.tick t).1.IsCoherent := by
  cases hcongested : (e.assessed t.sample).congested with
  | true => exact h.after_congested hcongested
  | false =>
    cases hcapped : e.capped with
    | true =>
      rw [h.tick_of_relieved hcongested hcapped]
      exact ⟨rfl, by rintro ⟨⟩, fun _ => rfl, rfl, rfl⟩
    | false =>
      rw [h.tick_of_quiet hcongested hcapped]
      refine ⟨h.phase, fun hc => ?_, h.capHigh, h.lastRequest, h.firstRequest⟩
      exact absurd (hcapped.symm.trans hc) Bool.false_ne_true

theorem IsCoherent.step (h : e.IsCoherent) (call : Call) : (e.step call).IsCoherent := by
  cases call with
  | update t => exact h.tick t
  | acknowledge => exact ⟨h.phase, h.cleanTicks, h.capHigh, h.lastRequest, h.firstRequest⟩
  | reset => exact isCoherent_ofConfig e.config

theorem IsCoherent.run (h : e.IsCoherent) (calls : List Call) : (e.run calls).IsCoherent := by
  induction calls using List.reverseRecOn with
  | nil => exact h
  | append_singleton calls call ih =>
    rw [run_append_singleton]
    exact ih.step call

/-- Under a ceiling that is an integer the cap stays permitted. -/
theorem isSound_run {config : Config} (hceiling : config.ceilings.high.bps.IsInteger)
    (calls : List Call) : ((ofConfig config).run calls).IsSound := by
  induction calls using List.reverseRecOn with
  | nil => exact isSound_ofConfig hceiling
  | append_singleton calls call ih =>
    have hsame : ((ofConfig config).run calls).config.ceilings.high.bps.IsInteger := by
      rw [run_config]
      exact hceiling
    rw [run_append_singleton]
    cases call with
    | update t => exact ih.update hsame t.sample t.identity t.now
    | acknowledge => exact ⟨ih.permits, ih.uncapped, ih.capped⟩
    | reset => exact isSound_ofConfig hsame

/-- A tick leaves the estimator capped exactly if it is congested. -/
theorem IsCoherent.tick_capped (h : e.IsCoherent) (t : Tick) :
    (e.tick t).1.capped = (e.assessed t.sample).congested := by
  cases hcongested : (e.assessed t.sample).congested with
  | true =>
    rw [Estimator.tick_of_congested hcongested]
    dsimp only
    split <;> rfl
  | false =>
    cases hcapped : e.capped with
    | true => rw [h.tick_of_relieved hcongested hcapped]
    | false =>
      rw [h.tick_of_quiet hcongested hcapped]
      exact hcapped

theorem capHigh_of_congested {t : Tick} (h : (e.assessed t.sample).congested = true) :
    (e.tick t).1.capHigh = e.loweredCap (e.assessed t.sample) := by
  rw [tick_of_congested h]
  dsimp only
  split <;> rfl

/-- A congested tick asks for caps exactly if that is due, and then remembers when it did. -/
theorem request_of_congested {t : Tick} (h : (e.assessed t.sample).congested = true) :
    (e.isDue t.now = true ∧ (e.tick t).1.lastRequest = some t.now ∧
        ∃ r, (e.tick t).2.outbound = some r) ∨
      (e.isDue t.now = false ∧ (e.tick t).1.lastRequest = e.lastRequest ∧
        (e.tick t).2.outbound = none) := by
  rw [tick_of_congested h]
  cases hdue : e.isDue t.now with
  | true => exact Or.inl ⟨rfl, rfl, _, rfl⟩
  | false => exact Or.inr ⟨rfl, rfl, rfl⟩

/-- What a congested tick asks for, if it asks for anything. -/
theorem outbound_of_congested {t : Tick} (h : (e.assessed t.sample).congested = true) {r : CapRequest}
    (hr : (e.tick t).2.outbound = some r) :
    let a := e.assessed t.sample
    CapRequest.ofCaps (.ofHigh (e.loweredCap a)) (if a.severe then .severe else .congestion)
      (roundedLoss a.lossRate) t.identity = r := by
  rw [tick_of_congested h] at hr
  obtain ⟨-, hr⟩ := Option.ite_none_right_eq_some.1 hr
  exact Option.some.inj hr

/-- The decision of a tick follows from an assessment. Whether there is a cap and which one, and what a
request says, is what the assessment leads to. -/
structure DecidesOn (e : Estimator) (t : Tick) (a : Assessment) : Prop where
  capped : (e.tick t).2.capped = a.congested
  capHigh : a.congested = true → (e.tick t).2.capHigh = e.loweredCap a
  /-- A new cap is taken from the average rate. -/
  newCap : a.congested = true → e.capped = false →
    (e.tick t).2.capHigh =
      ((⟨a.averageKilo * 1000⟩ : Bitrate) *
        (if a.severe then severeFactor else backoffFactor)).round.clamp leastCap e.config.ceilings.high
  asks : a.congested = true → e.isDue t.now = true → (e.tick t).2.outbound.isSome = true
  reason : a.congested = true → ∀ r, (e.tick t).2.outbound = some r →
    r.reason = if a.severe then .severe else .congestion
  lossRate : a.congested = true → ∀ r, (e.tick t).2.outbound = some r →
    r.lossRate = clampLoss (roundedLoss a.lossRate)

theorem loweredCap_of_uncapped (h : e.capped = false) (a : Assessment) :
    e.loweredCap a =
      ((⟨a.averageKilo * 1000⟩ : Bitrate) *
        (if a.severe then severeFactor else backoffFactor)).round.clamp leastCap
          e.config.ceilings.high := by
  unfold loweredCap
  dsimp only
  rw [if_neg (Bool.eq_false_iff.1 h)]
  by_cases hsevere : a.severe = true
  · rw [if_pos hsevere, if_pos hsevere]
  · rw [if_neg hsevere, if_neg hsevere, if_neg (Bool.eq_false_iff.1 h)]

/-- A tick decides on the assessment of the history with its own sample. -/
theorem IsCoherent.decidesOn_assessed (h : e.IsCoherent) (t : Tick) :
    e.DecidesOn t (e.assessed t.sample) where
  capped := by
    rw [← h.tick_capped t, Estimator.tick, update_value]
  capHigh hcongested := by rw [Estimator.tick_of_congested hcongested]
  newCap hcongested hcapped := by
    rw [Estimator.tick_of_congested hcongested]
    dsimp only
    rw [loweredCap_of_uncapped hcapped]
  asks hcongested hdue := by
    rw [Estimator.tick_of_congested hcongested]
    simp only [hdue, if_true, Option.isSome_some]
  reason hcongested r hr := by rw [← outbound_of_congested hcongested hr, CapRequest.ofCaps]
  lossRate hcongested r hr := by rw [← outbound_of_congested hcongested hr, CapRequest.ofCaps]

/-- After any operations, a tick decides on the assessment of the history with its own sample. -/
theorem run_decidesOn (config : Config) (calls : List Call) (t : Tick) :
    let e := (ofConfig config).run calls
    let measured := t.sample.measurement
    e.DecidesOn t (assess config (e.history.push measured) measured.lost) := by
  intro e measured
  have hconfig : e.config = config := run_config _ _
  rw [← hconfig]
  exact ((isCoherent_ofConfig config).run calls).decidesOn_assessed t

/-- Caps are asked for because of congestion, or taken back. -/
theorem IsCoherent.reason_of_outbound (h : e.IsCoherent) {t : Tick} {r : CapRequest}
    (hr : (e.tick t).2.outbound = some r) :
    r.reason = .severe ∨ r.reason = .congestion ∨ r.reason = .restore := by
  cases hcongested : (e.assessed t.sample).congested with
  | true =>
    obtain rfl := outbound_of_congested hcongested hr
    change (if (e.assessed t.sample).severe then Reason.severe else .congestion) = _ ∨ _
    split
    · exact Or.inl rfl
    · exact Or.inr (Or.inl rfl)
  | false =>
    cases hcapped : e.capped with
    | true =>
      rw [h.tick_of_relieved hcongested hcapped] at hr
      obtain rfl := Option.some.inj hr
      exact Or.inr (Or.inr rfl)
    | false =>
      rw [h.tick_of_quiet hcongested hcapped] at hr
      cases hr

/-- After any operations, a tick leaves the estimator capped exactly if its own loss is above the
threshold of congestion, and in the phase that belongs to that. Without a cap the ceiling is in
force. So the first tick without congestion takes a cap back, and nothing is ever asked for in order
to hold a cap or to raise it. -/
theorem run_tick_follows_loss (config : Config) (calls : List Call) (t : Tick) :
    let e := (ofConfig config).run calls
    let after := (e.update t.sample t.identity t.now).value.1
    let decision := (e.update t.sample t.identity t.now).value.2
    let measured := t.sample.measurement
    let expected := expectedPackets (History.averageKilo (e.history.push measured))
    (decision.capped = true ↔ config.congestionLoss < measured.lost / max expected leastPackets) ∧
      decision.lockHigh = decision.capped ∧ after.capped = decision.capped ∧
      after.phase = (if decision.capped then .backingOff else .idle) ∧
      after.capHigh = decision.capHigh ∧
      (decision.capped = false → decision.capHigh = config.ceilings.high) ∧
      (e.capped = true → decision.capped = false →
        decision.outbound = some (.ofCaps config.ceilings .restore 0 t.identity)) ∧
      ∀ r, decision.outbound = some r → r.reason ≠ .hold ∧ r.reason ≠ .probe := by
  intro e after decision measured expected
  have he : e.IsCoherent := (isCoherent_ofConfig config).run calls
  have hafter : after.IsCoherent := he.tick t
  have hconfig : e.config = config := run_config _ _
  have hconfig' : after.config = config := (update_config e _ _ _).trans hconfig
  -- The decision says what the state is, so it is enough to look at the state.
  have hdecision : decision.lockHigh = after.capped ∧ decision.capped = after.capped ∧
      decision.capHigh = after.capHigh := by
    simp only [decision, after, update_value, and_self]
  obtain ⟨hlock, hcapped, hcap⟩ := hdecision
  have hcongested : after.capped = (e.assessed t.sample).congested := he.tick_capped t
  have hloss : (e.assessed t.sample).congested = true ↔
      config.congestionLoss < measured.lost / max expected leastPackets := by
    rw [← hconfig]
    exact decide_eq_true_iff
  rw [hlock, hcapped, hcap]
  refine ⟨hcongested ▸ hloss, rfl, rfl, hafter.phase, rfl, fun h => ?_, fun hbefore h => ?_,
    fun r hr => ?_⟩
  · rw [hafter.capHigh h, hconfig']
  · have htick := he.tick_of_relieved (hcongested.symm.trans h) hbefore
    rw [← hconfig]
    exact congrArg (·.2.outbound) htick
  · rcases he.reason_of_outbound hr with h | h | h
    all_goals
      rw [h]
      exact ⟨by rintro ⟨⟩, by rintro ⟨⟩⟩

end Simulcast.Estimator
