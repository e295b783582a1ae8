import Simulcast.Estimator.Basic
import Simulcast.Proofs.Bitrate

/-!
# The cap of a receiver

A cap is rounded when it is lowered and then held between the least cap and the ceiling. If the
ceiling is an integer, so is every cap, and a publisher with the same ceiling does not change it. Under a
whole ceiling the cap is whole, so that it survives the wire and means the same to everyone that it is
sent to.

A capped estimator is always one that has just backed off. The first tick without congestion takes the
cap back, so that a cap is never raised step by step.

## Main definitions

* `Estimator.Permits` — an integer between the least cap and a ceiling
* `Estimator.IsSound` — the cap is permitted, and it is the ceiling unless the estimator is capped

## Main results

* `Estimator.IsSound.update` — a tick leaves the estimator sound
* `Estimator.update_outbound` — what a request of a tick says
* `Caps.high_sanitize_of_permits` — a permitted rate is kept as it is
-/

namespace Simulcast

namespace Estimator

variable {e : Estimator} {a : Assessment} {identity : String} {now : Time}

/-- An integer between the least cap, or the ceiling if that is even lower, and the ceiling. -/
structure Permits (ceiling rate : Bitrate) : Prop where
  isInteger : rate.bps.IsInteger
  least : (min leastCap ceiling).bps.rank ≤ rate.bps.rank
  most : rate.bps.rank ≤ ceiling.bps.rank

/-- The cap is permitted. Without a cap it is the ceiling, and with one the last tick was a congested
one. -/
structure IsSound (e : Estimator) : Prop where
  permits : Permits e.config.ceilings.high e.capHigh
  uncapped : e.capped = false → e.capHigh = e.config.ceilings.high
  capped : e.capped = true → e.phase = .backingOff ∧ e.cleanTicks = 0

theorem leastCap_isWhole : leastCap.bps.IsWhole := by
  have hlt : 1 * 1000000 < powTwo 64 := by decide
  exact Bitrate.isWhole_ofNat hlt

/-- Under a whole ceiling a permitted rate is whole. -/
theorem Permits.isWhole {ceiling rate : Bitrate} (h : Permits ceiling rate)
    (hceiling : ceiling.bps.IsWhole) : rate.bps.IsWhole :=
  have hnonneg : 0 ≤ (min leastCap ceiling).bps.rank := (leastCap_isWhole.min hceiling).rank_nonneg
  h.isInteger.isWhole hceiling (hnonneg.trans h.least) h.most

theorem permits_ceiling {ceiling : Bitrate} (h : ceiling.bps.IsInteger) :
    Permits ceiling ceiling where
  isInteger := h
  least := (Binary64.rank_min leastCap_isWhole.ne_nan h.ne_nan).trans_le (min_le_right _ _)
  most := le_rfl

theorem isSound_ofConfig {config : Config} (h : config.ceilings.high.bps.IsInteger) :
    (ofConfig config).IsSound where
  permits := permits_ceiling h
  uncapped _ := rfl
  capped h := by cases h

/-! ### Parts of a tick -/

theorem IsSound.permits_loweredCap (h : e.IsSound) (hceiling : e.config.ceilings.high.bps.IsInteger)
    (a : Assessment) : Permits e.config.ceilings.high (e.loweredCap a) := by
  have hclamp : ∀ target : Bitrate,
      Permits e.config.ceilings.high (target.round.clamp leastCap e.config.ceilings.high) := by
    intro target
    obtain ⟨-, hleast, hmost⟩ :=
      Bitrate.rank_clamp_between target.round leastCap_isWhole.ne_nan hceiling.ne_nan
    exact ⟨Bitrate.isInteger_clamp_round target leastCap_isWhole.isInteger hceiling, hleast, hmost⟩
  unfold loweredCap
  dsimp only
  split
  · -- The new cap is the old one or the one that would be taken without it.
    rcases Bitrate.min_choice (hclamp _).isInteger.ne_nan h.permits.isInteger.ne_nan with hmin | hmin
    · rw [hmin]
      exact hclamp _
    · rw [hmin]
      exact h.permits
  · exact hclamp _

theorem IsSound.backOff (h : e.IsSound) (hceiling : e.config.ceilings.high.bps.IsInteger)
    (a : Assessment) : (e.backOff a).value.IsSound where
  permits := h.permits_loweredCap hceiling a
  uncapped h := by cases h
  capped _ := ⟨rfl, rfl⟩

theorem IsSound.ease (h : e.IsSound) (hceiling : e.config.ceilings.high.bps.IsInteger) :
    e.ease.value.IsSound := by
  cases hcapped : e.capped with
  | false =>
    have hease : e.ease.value = { e with cleanTicks := e.cleanTicks + 1 } := by
      simp [Estimator.ease, hcapped]
    rw [hease]
    exact ⟨h.permits, h.uncapped, fun hc => absurd (hcapped.symm.trans hc) (by simp)⟩
  | true =>
    -- The last tick was a congested one, so this is the first without congestion.
    obtain ⟨hphase, hticks⟩ := h.capped hcapped
    have hease : e.ease.value = { e with cleanTicks := e.cleanTicks + 1 }.uncap := by
      simp [Estimator.ease, hcapped, hphase, hticks]
    rw [hease]
    exact ⟨permits_ceiling hceiling, fun _ => rfl, by rintro ⟨⟩⟩

theorem ease_config (e : Estimator) : e.ease.value.config = e.config := by
  have hraise : ∀ e : Estimator, e.raise.value.config = e.config := by
    intro e
    unfold raise
    dsimp only
    split <;> rfl
  unfold Estimator.ease
  dsimp only
  split
  · rfl
  split
  · rfl
  split
  · rfl
  split
  · exact hraise _
  split
  · exact hraise _
  · rfl

/-! ### Requests -/

/-- A request of the version spoken here that asks for a cap of the high layer. To take caps back is
to ask for the ceiling. -/
structure AsksFor (ceiling : Bitrate) (identity : String) (r : CapRequest) (rate : Bitrate) :
    Prop where
  version : r.version = protocolVersion
  identity_eq : r.identity = identity
  high : r.targets.high = some rate
  lossRate : ∃ x, r.lossRate = clampLoss x
  restore : r.reason = .restore → rate = ceiling

theorem asksFor_ofCaps {ceiling rate : Bitrate} (caps : Caps) (reason : Reason) (loss : Binary64)
    (identity : String) (hrate : caps.high = rate) (hrestore : reason = .restore → rate = ceiling) :
    AsksFor ceiling identity (.ofCaps caps reason loss identity) rate :=
  ⟨rfl, rfl, congrArg some hrate, ⟨loss, rfl⟩, hrestore⟩

theorem reason_ne_restore (e : Estimator) (a : Assessment) : e.reason a ≠ .restore := by
  unfold reason
  split
  · simp
  split
  · simp
  split <;> simp

theorem IsSound.emit (h : e.IsSound) (a : Assessment) (identity : String) (now : Time) :
    (e.emit a identity now).value.1.IsSound := by
  unfold Estimator.emit
  dsimp only
  split
  · split <;> exact ⟨h.permits, h.uncapped, h.capped⟩
  split <;> exact ⟨h.permits, h.uncapped, h.capped⟩

theorem emit_config (e : Estimator) (a : Assessment) (identity : String) (now : Time) :
    (e.emit a identity now).value.1.config = e.config := by
  unfold Estimator.emit
  dsimp only
  split
  · split <;> rfl
  split <;> rfl

/-- A request asks for the cap, or for the ceiling, which is then the cap. -/
theorem IsSound.asksFor_emit (h : e.IsSound) {r : CapRequest}
    (hr : (e.emit a identity now).value.2 = some r) :
    AsksFor e.config.ceilings.high identity r (e.emit a identity now).value.1.capHigh := by
  revert hr
  unfold Estimator.emit
  dsimp only
  split
  · split
    · intro hr
      rw [← Option.some.inj hr]
      exact asksFor_ofCaps (.ofHigh e.capHigh) (e.reason a) (roundedLoss a.lossRate) identity
        (Bitrate.round_eq_self h.permits.isInteger)
        fun hreason => absurd hreason (e.reason_ne_restore a)
    · intro hr
      cases hr
  split
  · next hcapped _ =>
    intro hr
    rw [← Option.some.inj hr]
    have hcap := h.uncapped (Bool.eq_false_iff.2 hcapped)
    exact asksFor_ofCaps e.config.ceilings .restore 0 identity hcap.symm fun _ => hcap
  · intro hr
    cases hr

/-! ### One tick -/

/-- The estimator once the sample of a tick is judged, before anything is asked for. -/
def judged (e : Estimator) (sample : InboundSample) : Estimator :=
  let e := { e with history := e.history.push sample.measurement }
  let a := assess e.config e.history sample.measurement.lost
  if a.congested then (e.backOff a).value else e.ease.value

theorem update_value (e : Estimator) (sample : InboundSample) (identity : String) (now : Time) :
    let a := assess e.config (e.history.push sample.measurement) sample.measurement.lost
    let emitted := ((e.judged sample).emit a identity now).value
    let e' := (emitted.1.checkAck now).value
    (e.update sample identity now).value =
      (e', ⟨emitted.2, e'.capped, e'.fallback, e'.capHigh, e'.capped⟩) := by
  intro a emitted e'
  unfold update
  dsimp only
  split
  · next hcongested => simp [a, e', emitted, judged, hcongested]
  · next hcongested => simp [a, e', emitted, judged, hcongested]

theorem checkAck_value (e : Estimator) (now : Time) :
    (e.checkAck now).value = { e with fallback := (e.checkAck now).value.fallback } := by
  unfold checkAck
  split <;> rfl

theorem judged_config (e : Estimator) (sample : InboundSample) :
    (e.judged sample).config = e.config := by
  unfold judged
  dsimp only
  split
  · rfl
  · exact ease_config _

theorem IsSound.judged (h : e.IsSound) (hceiling : e.config.ceilings.high.bps.IsInteger)
    (sample : InboundSample) : (e.judged sample).IsSound := by
  have hpush : { e with history := e.history.push sample.measurement }.IsSound :=
    ⟨h.permits, h.uncapped, h.capped⟩
  unfold Estimator.judged
  dsimp only
  split
  · exact hpush.backOff hceiling _
  · exact hpush.ease hceiling

theorem update_config (e : Estimator) (sample : InboundSample) (identity : String) (now : Time) :
    (e.update sample identity now).value.1.config = e.config := by
  rw [update_value]
  dsimp only
  rw [checkAck_value]
  exact (emit_config _ _ _ _).trans (judged_config e sample)

/-- A tick leaves the estimator sound. -/
theorem IsSound.update (h : e.IsSound) (hceiling : e.config.ceilings.high.bps.IsInteger)
    (sample : InboundSample) (identity : String) (now : Time) :
    (e.update sample identity now).value.1.IsSound := by
  rw [update_value]
  dsimp only
  rw [checkAck_value]
  have hemit := (h.judged hceiling sample).emit
    (assess e.config (e.history.push sample.measurement) sample.measurement.lost) identity now
  exact ⟨hemit.permits, hemit.uncapped, hemit.capped⟩

/-- A request of a tick asks for the cap that the estimator has after it. -/
theorem IsSound.asksFor_update (h : e.IsSound) (hceiling : e.config.ceilings.high.bps.IsInteger)
    {sample : InboundSample} {r : CapRequest}
    (hr : (e.update sample identity now).value.2.outbound = some r) :
    AsksFor e.config.ceilings.high identity r (e.update sample identity now).value.1.capHigh := by
  rw [update_value] at hr ⊢
  dsimp only at hr ⊢
  rw [checkAck_value]
  have hasks := (h.judged hceiling sample).asksFor_emit hr
  rw [judged_config] at hasks
  exact hasks

end Estimator

/-! ### The publisher's side -/

namespace Caps

open Estimator (Permits leastCap)

theorem floor_high_isWhole : floor.high.bps.IsWhole := by
  have hlt : 500 * 1000 < powTwo 64 := by decide
  exact Bitrate.isWhole_ofNat hlt

theorem rank_floor_high_le : floor.high.bps.rank ≤ leastCap.bps.rank := by decide +kernel

/-- A permitted rate lies between floor and ceiling, and is kept as it is. -/
theorem high_sanitize_of_permits {ceilings : Caps} {rate : Bitrate} {t : Targets}
    (hceiling : ceilings.high.bps.IsInteger) (hrate : Permits ceilings.high rate)
    (ht : t.high = some rate) : (sanitize t ceilings).high = rate := by
  -- The floor of a publisher is below the least cap of a receiver.
  have hfloor : (min floor.high ceilings.high).bps.rank ≤ rate.bps.rank := by
    refine le_trans ?_ hrate.least
    rw [Bitrate.bps_min, Bitrate.bps_min,
      Binary64.rank_min floor_high_isWhole.ne_nan hceiling.ne_nan,
      Binary64.rank_min Estimator.leastCap_isWhole.ne_nan hceiling.ne_nan]
    exact min_le_min_right _ rank_floor_high_le
  change bounded (t.high.getD ceilings.high) floor.high ceilings.high = rate
  rw [ht, Option.getD_some, bounded, Bitrate.clamp_eq_self hrate.isInteger.isFinite
    floor_high_isWhole.ne_nan hceiling.ne_nan hfloor hrate.most]
  exact Bitrate.round_eq_self hrate.isInteger

end Caps

end Simulcast
