import Simulcast.Proofs.Binary64.Nonnegative
import Simulcast.Proofs.Estimator.Window
import Simulcast.Proofs.Message.NormalForm

/-!
# Statistics that make no sense

Statistics may report that fewer packets are lost than before, or a rate that is negative, infinite or
no number at all. Such a value is counted as nothing before it enters an average, and so it acts on no
later tick either. What enters an average is finite and has no sign. The averages, and everything that
is computed from them, may be infinite then, but they are never NaN, with which no comparison holds.

The losses are counts of 64 bits, and that bounds their average. Without a bound an infinite loss could meet
an infinite count of packets.

## Main definitions

* `InboundSample.cleaned` — a sample in which zero stands for what makes no sense
* `History.IsPlausible` — an average can be taken over all of it
* `Estimator.IsUnharmed` — the state holds plausible numbers

## Main results

* `InboundSample.measurement_cleaned` — it makes no difference whether a sample is cleaned
* `History.IsPlausible.assess` — nothing in an assessment is NaN
* `Estimator.IsUnharmed.run` — the state after any operations
* `Estimator.run_unharmed_by_malformed` — malformed statistics are no signal
-/

namespace Simulcast

open Binary64

/-! ### Samples -/

namespace Bitrate

variable {r : Bitrate}

theorem isValid_of_inKilo (h : r.inKilo.isFinite = true) : r.isValid = true := by
  obtain ⟨_ | s | _⟩ := r
  · cases h
  · cases s <;> exact absurd h (by decide +kernel)
  · rfl

/-- A thousandth of a negative rate is negative. -/
theorem rank_inKilo_of_neg (hvalid : r.isValid = true) (h : r < zero) :
    r.inKilo.rank ≤ rank 0 := by
  obtain ⟨x⟩ := r
  have hzero : zero.bps.place = 0 := by decide +kernel
  have hplace : x.place < zero.bps.place :=
    (lt_iff_place_lt (ne_nan_of_isFinite hvalid) (by decide +kernel)).1 h
  rw [hzero] at hplace
  rcases x with _ | _ | ⟨s, m, hm⟩
  · cases hvalid
  · cases hvalid
  -- A number below zero has a sign, and a quotient by a number without one keeps it.
  obtain rfl : s = true := by
    by_contra hs
    rw [place_finite, signed, if_neg hs] at hplace
    omega
  have hpos : 0 < (1000 : Binary64).place := by decide +kernel
  obtain ⟨n, hn, hthousand⟩ := exists_finite_of_place_pos (by decide +kernel) hpos
  rw [hthousand] at hpos
  have hkilo : inKilo ⟨finite true m hm⟩ = nearest true (m * unit) n := by
    rw [inKilo, hthousand]
    exact finite_div_finite true false hm hn (ne_zero_of_place_pos hpos)
  rw [hkilo]
  exact rank_nearest_neg _ _

end Bitrate

namespace InboundSample

/-- The sample with zero for a negative loss, and for a rate that is negative or not finite. -/
def cleaned (s : InboundSample) : InboundSample where
  lost := if s.lost < 0 then 0 else s.lost
  received := if s.received.isValid ∧ ¬ s.received < .zero then s.received else .zero

/-- It makes no difference whether a sample is cleaned. -/
theorem measurement_cleaned (s : InboundSample) : s.cleaned.measurement = s.measurement := by
  have hlost : max (if s.lost < 0 then 0 else s.lost) 0 = max s.lost 0 := by omega
  rw [measurement, measurement, cleaned, Measurement.mk.injEq, hlost]
  refine ⟨rfl, ?_⟩
  dsimp only
  split
  · rfl
  · next himplausible =>
    -- The rate was replaced by zero, and has to be measured as zero without that, too.
    have hzero : (if Bitrate.zero.inKilo.isFinite then max Bitrate.zero.inKilo 0 else 0) = 0 := by
      decide +kernel
    rw [hzero]
    split
    · next hfinite =>
      -- The rate is finite, so that it was left out because it is negative.
      have hvalid := Bitrate.isValid_of_inKilo hfinite
      have hneg : s.received < .zero := by
        by_contra hneg
        exact himplausible ⟨hvalid, hneg⟩
      exact (max_eq_right_of_rank (ne_nan_of_isFinite hfinite) isNonneg_zero.ne_nan
        (Bitrate.rank_inKilo_of_neg hvalid hneg)).symm
    · rfl

/-- A measured rate is finite and has no sign. -/
theorem kilo_measurement (s : InboundSample) :
    s.measurement.kilo.IsNonneg ∧ s.measurement.kilo.isFinite = true := by
  have hzero : isFinite 0 = true := by decide +kernel
  simp only [measurement]
  split
  · next hfinite =>
    have hnan := ne_nan_of_isFinite hfinite
    refine ⟨(isNonneg_max hnan isNonneg_zero).1, ?_⟩
    rw [max_def hnan isNonneg_zero.ne_nan]
    split
    · exact hzero
    · exact hfinite
  · exact ⟨isNonneg_zero, hzero⟩

/-- A measured loss is a word. -/
theorem isWhole_lost_measurement {s : InboundSample} (h : s.lost < powTwo 63) :
    s.measurement.lost.IsWhole := by
  obtain ⟨n, hn⟩ := Int.eq_ofNat_of_zero_le (le_max_right s.lost 0)
  have hword : n < powTwo 64 := by
    have hlt : powTwo 63 < powTwo 64 := powTwo_lt (by decide)
    omega
  simp only [measurement]
  rw [hn, ofInt_natCast]
  exact isWhole_ofNat hword

end InboundSample

/-! ### Averages -/

/-- A measurement that averages can be taken over. -/
structure Measurement.IsPlausible (m : Measurement) : Prop where
  lost : m.lost.IsUpTo 64
  kilo : m.kilo.IsNonneg ∧ m.kilo.isFinite = true

/-- A sample is measured as something plausible, whatever it reports. -/
theorem InboundSample.isPlausible_measurement {s : InboundSample} (h : s.lost < powTwo 63) :
    s.measurement.IsPlausible where
  lost := (isWhole_lost_measurement h).isUpTo
  kilo := s.kilo_measurement

namespace History

variable {h : History} {m : Measurement}

/-- Averages can be taken over all of the history. -/
structure IsPlausible (h : History) : Prop where
  losses : ∀ x ∈ h.losses, x.IsUpTo 64
  kilos : ∀ x ∈ h.kilos, x.IsNonneg ∧ x.isFinite = true
  losses_length : h.losses.length ≤ size
  kilos_length : h.kilos.length ≤ size

theorem isPlausible_empty : empty.IsPlausible where
  losses := by simp [empty]
  kilos := by simp [empty]
  losses_length := Nat.zero_le _
  kilos_length := Nat.zero_le _

theorem mem_extend {xs : List Binary64} {x y : Binary64} (hy : y ∈ extend xs x) :
    y ∈ xs ∨ y = x := by
  have hmem := List.mem_of_mem_drop hy
  rwa [List.mem_append, List.mem_singleton] at hmem

theorem length_extend_le (xs : List Binary64) (x : Binary64) : (extend xs x).length ≤ size := by
  rw [extend, List.length_drop]
  omega

theorem IsPlausible.push (hp : h.IsPlausible) (hm : m.IsPlausible) : (h.push m).IsPlausible where
  losses x hx := by
    rcases mem_extend hx with hold | rfl
    · exact hp.losses x hold
    · exact hm.lost
  kilos x hx := by
    rcases mem_extend hx with hold | rfl
    · exact hp.kilos x hold
    · exact hm.kilo
  losses_length := length_extend_le _ _
  kilos_length := length_extend_le _ _

/-- No weight is above one. -/
theorem isUpTo_weight {count : Nat} (hcount : count ≤ size) :
    ∀ w ∈ weights count, w.IsUpTo 0 := by
  have hall : ∀ count ≤ size, ∀ w ∈ weights count,
      w.isFinite = true ∧ 0 < w.place ∧ w.place ≤ (powTwo 0 * unit : Nat) := by
    decide +kernel
  intro w hw
  obtain ⟨hfinite, hpos, hone⟩ := hall count hcount w hw
  exact isUpTo_of_place hfinite hpos hone

/-- Ten losses double the bound ten times at most. -/
theorem IsPlausible.isUpTo_averageLoss (hp : h.IsPlausible) : h.averageLoss.IsUpTo 74 := by
  have hzero : IsUpTo 64 0 := by
    rw [zero_eq]
    exact ⟨0, representable_zero, Nat.zero_le _, rfl⟩
  have hweighted : ∀ x ∈ List.zipWith (· * ·) h.losses (weights h.losses.length), x.IsUpTo 64 := by
    intro x hx
    obtain ⟨i, hi, rfl⟩ := List.getElem_of_mem hx
    rw [List.getElem_zipWith]
    exact (hp.losses _ (List.getElem_mem _)).mul
      (isUpTo_weight hp.losses_length _ (List.getElem_mem _)) (by decide)
  have hlength : (List.zipWith (· * ·) h.losses (weights h.losses.length)).length ≤ 10 := by
    rw [List.length_zipWith]
    exact (min_le_left _ _).trans hp.losses_length
  have htotal : (sum (List.zipWith (· * ·) h.losses (weights h.losses.length))).IsUpTo 74 :=
    (isUpTo_foldl hzero hweighted (by omega)).mono (by omega)
  simp only [averageLoss]
  split
  · next hweight =>
    -- There is a weight, so there is a loss, and the weights come to one at least.
    have hne : h.losses.length ≠ 0 := by
      intro hnone
      rw [hnone] at hweight
      exact absurd hweight (by decide +kernel)
    obtain ⟨hfinite, hone⟩ := one_le_sum_weights _ hp.losses_length hne
    exact htotal.div hfinite hone (by decide)
  · exact hzero.mono (by decide)

theorem IsPlausible.isNonneg_averageKilo (hp : h.IsPlausible) : h.averageKilo.IsNonneg := by
  rw [averageKilo]
  split
  · exact isNonneg_zero
  · next hsome =>
    have hcounts : ∀ count ≤ size, count ≠ 0 → (ofNat count).isFinite = true ∧
        0 < (ofNat count).place := by
      decide +kernel
    have hne : h.kilos.length ≠ 0 := by
      rw [Ne, List.length_eq_zero_iff, ← List.isEmpty_iff]
      exact hsome
    obtain ⟨hfinite, hpos⟩ := hcounts _ hp.kilos_length hne
    have hsum : (sum h.kilos).IsNonneg := isNonneg_foldl isNonneg_zero fun x hx => (hp.kilos x hx).1
    exact hsum.div_of_isFinite hfinite hpos

end History

theorem isNonneg_expectedPackets {kilo : Binary64} (h : kilo.IsNonneg) :
    (expectedPackets kilo).IsNonneg := by
  have hbits : (kilo * 1000).IsNonneg := h.mul (by decide +kernel) (by decide +kernel)
  have hbytes : (kilo * 1000 / 8).IsNonneg :=
    hbits.div_of_isFinite (by decide +kernel) (by decide +kernel)
  have hpackets : (kilo * 1000 / 8 / packetSize).IsNonneg :=
    hbytes.div_of_isFinite (by decide +kernel) (by decide +kernel)
  exact hpackets.mul (by decide +kernel) (by decide +kernel)

/-- Nothing in an assessment is NaN, or negative. -/
theorem History.IsPlausible.assess {h : History} (hp : h.IsPlausible) (config : Config)
    {lost : Binary64} (hlost : lost.IsUpTo 64) :
    let a := Simulcast.assess config h lost
    a.averageKilo.IsNonneg ∧ a.tickLoss.IsNonneg ∧ a.lossRate.IsNonneg := by
  intro a
  have hkilo := hp.isNonneg_averageKilo
  have hloss := hp.isUpTo_averageLoss
  have hexpected := isNonneg_expectedPackets hkilo
  refine ⟨hkilo, ?_, ?_⟩
  · -- The divisor is no less than the least count of packets.
    have hleast : 0 < leastPackets.place := by decide +kernel
    obtain ⟨hmax, hle⟩ := isNonneg_max (y := leastPackets) hexpected.ne_nan
      (isNonneg_of_place_pos (by decide +kernel) hleast)
    exact hlost.isNonneg.div hmax (hleast.trans_le hle) (Or.inl hlost.isFinite)
  · -- Here it is no less than one, and it may be infinite, but the average loss is not.
    have hone : 0 < place 1 := by decide +kernel
    obtain ⟨hmax, hle⟩ := isNonneg_max (y := 1) (hexpected.add hloss.isNonneg).ne_nan
      (isNonneg_of_place_pos (by decide +kernel) hone)
    simp only [a, Simulcast.assess]
    split
    · exact hloss.isNonneg.div hmax (hone.trans_le hle) (Or.inl hloss.isFinite)
    · exact isNonneg_zero

/-! ### Caps and requests -/

namespace Estimator

variable {e : Estimator} {calls : List Call} {t : Tick}

/-- A cap is a number even if the rate that it is taken from is none. -/
theorem loweredCap_ne_nan (e : Estimator) (a : Assessment) : (e.loweredCap a).bps ≠ .nan := by
  have hleast : leastCap.bps ≠ .nan := leastCap_isWhole.ne_nan
  unfold loweredCap
  dsimp only
  split
  · exact min_ne_nan (Bitrate.clamp_ne_nan _ _ hleast)
  · exact Bitrate.clamp_ne_nan _ _ hleast

/-- The state of an estimator that no statistics have done harm to. -/
structure IsUnharmed (e : Estimator) : Prop where
  isCoherent : e.IsCoherent
  ceilings : e.config.ceilings.IsNumber
  capHigh : e.capHigh.bps ≠ .nan
  history : e.history.IsPlausible

theorem isUnharmed_ofConfig {config : Config} (h : config.ceilings.IsNumber) :
    (ofConfig config).IsUnharmed where
  isCoherent := isCoherent_ofConfig config
  ceilings := h
  capHigh := h .high
  history := History.isPlausible_empty

theorem IsUnharmed.capHigh_tick (h : e.IsUnharmed) (t : Tick) :
    (e.tick t).1.capHigh.bps ≠ .nan := by
  cases hcongested : (e.assessed t.sample).congested with
  | true =>
    rw [capHigh_of_congested hcongested]
    exact loweredCap_ne_nan e _
  | false =>
    -- Without a cap the ceiling is in force.
    have hcapped := (h.isCoherent.tick_capped t).trans hcongested
    have hceiling := (h.isCoherent.tick t).capHigh hcapped
    rw [Estimator.tick, update_config] at hceiling
    rw [Estimator.tick, hceiling]
    exact h.ceilings .high

theorem IsUnharmed.tick (h : e.IsUnharmed) (hlost : t.sample.lost < powTwo 63) :
    (e.tick t).1.IsUnharmed where
  isCoherent := h.isCoherent.tick t
  ceilings := by
    rw [Estimator.tick, update_config]
    exact h.ceilings
  capHigh := h.capHigh_tick t
  history := by
    rw [h.isCoherent.history_tick]
    split
    · exact History.isPlausible_empty
    · exact h.history.push (InboundSample.isPlausible_measurement hlost)

theorem IsUnharmed.run (h : e.IsUnharmed)
    (hlost : ∀ t : Tick, .update t ∈ calls → t.sample.lost < powTwo 63) : (e.run calls).IsUnharmed := by
  induction calls using List.reverseRecOn with
  | nil => exact h
  | append_singleton calls call ih =>
    have hbefore := ih fun t ht => hlost t (List.mem_append_left _ ht)
    rw [run_append_singleton]
    cases call with
    | update t => exact hbefore.tick (hlost t (List.mem_append_right _ (List.mem_singleton.2 rfl)))
    | acknowledge =>
      exact ⟨hbefore.isCoherent.step .acknowledge, hbefore.ceilings, hbefore.capHigh,
        hbefore.history⟩
    | reset => exact isUnharmed_ofConfig hbefore.ceilings

theorem request_ofCaps {caps : Caps} (h : caps.IsNumber) (reason : Reason) (x : Binary64)
    (identity : String) {r : CapRequest} (hr : .ofCaps caps reason x identity = r) :
    ∃ caps : Caps, caps.IsNumber ∧ r.targets = ⟨some caps.high, some caps.medium, some caps.low⟩ ∧
      ∃ x, r.lossRate = clampLoss x := by
  subst hr
  exact ⟨caps, h, rfl, x, rfl⟩

/-- Whatever is asked for, it is asked for in numbers. -/
theorem IsUnharmed.request (h : e.IsUnharmed) {r : CapRequest}
    (hr : (e.tick t).2.outbound = some r) :
    ∃ caps : Caps, caps.IsNumber ∧ r.targets = ⟨some caps.high, some caps.medium, some caps.low⟩ ∧
      ∃ x, r.lossRate = clampLoss x := by
  cases hcongested : (e.assessed t.sample).congested with
  | true =>
    exact request_ofCaps (Caps.isNumber_ofHigh (loweredCap_ne_nan e _)) _ _ _
      (outbound_of_congested hcongested hr)
  | false =>
    cases hcapped : e.capped with
    | true =>
      rw [h.isCoherent.tick_of_relieved hcongested hcapped] at hr
      exact request_ofCaps h.ceilings _ _ _ (Option.some.inj hr)
    | false =>
      rw [h.isCoherent.tick_of_quiet hcongested hcapped] at hr
      cases hr

/-! ### Cleaned samples -/

/-- An operation with a cleaned sample. -/
def Call.cleaned : Call → Call
  | .update t => .update { t with sample := t.sample.cleaned }
  | call => call

theorem step_cleaned (e : Estimator) (call : Call) : e.step call.cleaned = e.step call := by
  cases call with
  | update t =>
    simp only [Call.cleaned, step, Estimator.tick, update, InboundSample.measurement_cleaned]
  | acknowledge => rfl
  | reset => rfl

theorem decision?_cleaned (e : Estimator) (call : Call) :
    e.decision? call.cleaned = e.decision? call := by
  cases call with
  | update t =>
    simp only [Call.cleaned, decision?, Estimator.tick, update, InboundSample.measurement_cleaned]
  | acknowledge => rfl
  | reset => rfl

/-- It makes no difference to any decision whether the samples are cleaned. -/
theorem decisions_cleaned (e : Estimator) (calls : List Call) :
    e.decisions (calls.map Call.cleaned) = e.decisions calls := by
  induction calls generalizing e with
  | nil => rfl
  | cons call calls ih =>
    rw [List.map_cons, decisions, decisions, decision?_cleaned, step_cleaned, ih]

/-- Malformed statistics are no signal. Whatever the samples report, the history holds finite numbers from
zero on, no average, no count of packets, no loss and no cap is ever NaN, and what is sent is a loss rate
between zero and one and a number for each layer. It is these averages that a tick decides on. The
decisions are the same as if zero had been reported in the place of each negative loss and of each rate
that is negative or not finite. -/
theorem run_unharmed_by_malformed (config : Config) (hceilings : config.ceilings.IsNumber)
    (calls : List Call) (hcalls : ∀ t : Tick, .update t ∈ calls → t.sample.lost < powTwo 63)
    (t : Tick) (ht : t.sample.lost < powTwo 63) :
    let e := (ofConfig config).run calls
    let h := e.history.push t.sample.measurement
    let a := assess config h t.sample.measurement.lost
    let after := (e.tick t).1
    let d := (e.tick t).2
    (∀ x ∈ e.history.losses ++ e.history.kilos ++ h.losses ++ h.kilos, x.isFinite = true ∧ 0 ≤ x) ∧
      (h.averageLoss ≠ .nan ∧ a.averageKilo ≠ .nan ∧ expectedPackets a.averageKilo ≠ .nan ∧
        a.tickLoss ≠ .nan ∧ a.lossRate ≠ .nan) ∧
      (e.capHigh.bps ≠ .nan ∧ after.capHigh.bps ≠ .nan ∧ d.capHigh.bps ≠ .nan) ∧
      (∀ r, d.outbound = some r →
        (r.lossRate.isFinite = true ∧ 0 ≤ r.lossRate ∧ r.lossRate ≤ 1) ∧
          ∃ caps : Caps, caps.IsNumber ∧
            r.targets = ⟨some caps.high, some caps.medium, some caps.low⟩) ∧
      e.DecidesOn t a ∧
      (ofConfig config).decisions (calls.map Call.cleaned) = (ofConfig config).decisions calls := by
  intro e h a after d
  have he : e.IsUnharmed := (isUnharmed_ofConfig hceilings).run hcalls
  have hmeasured := InboundSample.isPlausible_measurement ht
  have hh : h.IsPlausible := he.history.push hmeasured
  obtain ⟨hkilo, htick, hrate⟩ := hh.assess config hmeasured.lost
  have hentry : ∀ {g : History}, g.IsPlausible → ∀ x, x ∈ g.losses ∨ x ∈ g.kilos →
      x.isFinite = true ∧ 0 ≤ x := by
    rintro g hg x (hx | hx)
    · exact ⟨(hg.losses x hx).isFinite, (hg.losses x hx).isNonneg.zero_le⟩
    · exact ⟨(hg.kilos x hx).2, (hg.kilos x hx).1.zero_le⟩
  have hdecision : d.capHigh = after.capHigh := by
    simp only [d, after, Estimator.tick, update_value]
  refine ⟨fun x hx => ?_, ⟨hh.isUpTo_averageLoss.isNonneg.ne_nan, hkilo.ne_nan,
    (isNonneg_expectedPackets hkilo).ne_nan, htick.ne_nan, hrate.ne_nan⟩,
    ⟨he.capHigh, he.capHigh_tick t, ?_⟩, fun r hr => ?_,
    run_decidesOn config calls t, decisions_cleaned _ _⟩
  · simp only [List.mem_append, or_assoc] at hx
    rw [← or_assoc] at hx
    exact hx.elim (hentry he.history x) (hentry hh x)
  · rw [hdecision]
    exact he.capHigh_tick t
  · obtain ⟨caps, hcaps, htargets, x, hx⟩ := he.request hr
    rw [hx]
    exact ⟨clampLoss_spec x, caps, hcaps, htargets⟩

/-- Congestion after samples without any sense is answered with a proper request, although the rate makes no
sense even then. -/
theorem malformed_before_congestion :
    let tick (lost : Int) (received : Bitrate) (now : Time) : Tick :=
      ⟨⟨lost, received⟩, "receiver", now⟩
    let calls : List Call := [.update (tick (-7) ⟨.nan⟩ 0),
      .update (tick 0 ⟨.infinity false⟩ 1000), .update (tick 3 ⟨.infinity true⟩ 2000)]
    let t := tick 5000 ⟨.ofInt (-1)⟩ 4000
    let e := (ofConfig {}).run calls
    ({} : Config).ceilings.IsNumber ∧
      (∀ t : Tick, .update t ∈ calls → t.sample.lost < powTwo 63) ∧ t.sample.lost < powTwo 63 ∧
      e.history.losses = [0, 0, 3] ∧ e.history.kilos = [0, 0, 0] ∧
      (ofConfig {}).decisions (calls.map Call.cleaned) = (ofConfig {}).decisions calls ∧
      ∃ r, (e.tick t).2.outbound = some r ∧ r.reason = .severe ∧
        r.lossRate.isFinite = true ∧ 0 ≤ r.lossRate ∧ r.lossRate ≤ 1 := by
  intro tick calls t e
  have hceilings : ({} : Config).ceilings.IsNumber := Caps.isNumber_standard
  have hcalls : ∀ t : Tick, .update t ∈ calls → t.sample.lost < powTwo 63 := by
    intro t ht
    simp only [calls, List.mem_cons, Call.update.injEq, List.not_mem_nil, or_false] at ht
    rcases ht with rfl | rfl | rfl <;> decide +kernel
  have ht : t.sample.lost < powTwo 63 := by decide +kernel
  obtain ⟨-, -, -, hrequest, -, hcleaned⟩ := run_unharmed_by_malformed {} hceilings calls hcalls t ht
  obtain ⟨r, hr⟩ : ∃ r, (e.tick t).2.outbound = some r :=
    Option.isSome_iff_exists.1 (by decide +kernel)
  have hreason : (e.tick t).2.outbound.map CapRequest.reason = some .severe := by decide +kernel
  rw [hr, Option.map_some, Option.some_inj] at hreason
  have hrun : e = (ofConfig {}).run calls := rfl
  rw [← hrun] at hrequest
  obtain ⟨hloss, -⟩ := hrequest r hr
  exact ⟨hceilings, hcalls, ht, by decide +kernel, by decide +kernel, hcleaned, r, hr, hreason, hloss⟩

end Estimator

end Simulcast
