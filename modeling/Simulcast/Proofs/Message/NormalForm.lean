import Simulcast.Proofs.Message.Loss
import Simulcast.Proofs.Message.RoundTrip

/-!
# What becomes of a message on its way

Rates are sent as words, so that a reader finds the nearest word instead of the rate. The loss rate is
sent as it is, unless it is not finite, but a reader holds it between zero and one. Nothing else changes.
So a message comes out in a normal form, in which it could be sent on without a further change.

What the text of a loss rate is read as is left open here. It is the same number, as far as this
development assumes, and the text of another one does not matter.

## Main definitions

* `Message.onWire` — a message as a reader finds it
* `Message.LossReadsBack` — the text of the loss rate is read as the loss rate
* `Message.IsPlain` — a message that a reader finds as it was

## Main results

* `Message.decode_encode` — what is decoded is the normal form, or another version is refused
-/

namespace Simulcast

/-! ### Rates -/

namespace Bitrate

variable {r : Bitrate}

theorem isWhole_onWire (r : Bitrate) : r.onWire.bps.IsWhole := by
  rw [bps_onWire, Binary64.ofInt_natCast]
  exact Binary64.isWhole_ofNat r.whole_lt

@[simp] theorem onWire_onWire (r : Bitrate) : r.onWire.onWire = r.onWire :=
  onWire_eq_self r.isWhole_onWire

/-- Negative zero is read as zero, and other whole rates as what they are. -/
theorem onWire_same (h : r.bps.IsCount) : r.onWire.same r = true := by
  obtain ⟨x⟩ := r
  rcases h with hwhole | hzero
  · rw [onWire_eq_self hwhole]
    exact (Binary64.same_iff_place_eq hwhole.ne_nan hwhole.ne_nan).2 rfl
  · obtain rfl : x = .signedZero true := hzero
    decide +kernel

end Bitrate

@[simp] theorem Caps.Targets.onWire_onWire (t : Caps.Targets) : t.onWire.onWire = t.onWire := by
  simp [onWire, Function.comp_def]

/-! ### Loss rates -/

section Loss

variable {x y : Binary64}

/-- The texts of zero and one are read as zero and one. -/
theorem readsBack_ends : Json.ReadsBack 0 ∧ Json.ReadsBack 1 := by
  decide +kernel

theorem HeldAsLoss.readsBack (hheld : HeldAsLoss x y) (h : x.isFinite = true → Json.ReadsBack x) :
    Json.ReadsBack y := by
  cases hheld with
  | unusable => exact readsBack_ends.1
  | below => exact readsBack_ends.1
  | above => exact readsBack_ends.2
  | within hzero hone => exact h (isFinite_of_within hzero hone)

end Loss

namespace Message

open Json (Value)

/-! ### Messages -/

variable {m : Message}

/-- A message as a reader finds it. -/
def onWire : Message → Message
  | .request r => .request { r with targets := r.targets.onWire, lossRate := clampLoss r.lossRate }
  | .ack a => .ack { a with appliedHigh := a.appliedHigh.onWire }

/-- The loss rate of a message, if it has one. -/
def lossRate? : Message → Option Binary64
  | .request r => some r.lossRate
  | .ack _ => none

/-- The rates of a message. -/
def rates : Message → List Bitrate
  | .request r => r.targets.high.toList ++ r.targets.medium.toList ++ r.targets.low.toList
  | .ack a => [a.appliedHigh]

/-- The text of the loss rate is read as the loss rate. -/
def LossReadsBack (m : Message) : Prop :=
  ∀ x, m.lossRate? = some x → x.isFinite = true → Json.ReadsBack x

/-- A message of whole rates, with a loss rate between zero and one. -/
structure IsPlain (m : Message) : Prop where
  rates : ∀ r ∈ m.rates, r.bps.IsCount
  lossRate : ∀ x, m.lossRate? = some x → 0 ≤ x ∧ x ≤ 1

@[simp] theorem version_onWire (m : Message) : m.onWire.version = m.version := by
  cases m <;> simp only [onWire, version]

@[simp] theorem onWire_onWire (m : Message) : m.onWire.onWire = m.onWire := by
  cases m <;> simp [onWire]

theorem LossReadsBack.onWire (h : m.LossReadsBack) : m.onWire.LossReadsBack := by
  cases m with
  | request r =>
    intro x hx _
    rw [← Option.some.inj hx]
    exact (heldAsLoss_clampLoss r.lossRate).readsBack (h r.lossRate rfl)
  | ack a => exact fun x hx => by cases hx

/-- A loss rate that is not finite is written as `null`, and that is read as no loss. -/
theorem clampLoss_looseNumber (x : Binary64) :
    clampLoss x.toValue.looseNumber = clampLoss x := by
  unfold Binary64.toValue
  split
  · rfl
  · next h =>
    have hnone : ∀ y : Binary64, ¬ y.isFinite = true → clampLoss y = 0 := fun y hy => by
      rw [clampLoss, if_neg hy]
    rw [hnone x h]
    exact hnone .nan (by simp [Binary64.isFinite])

/-- What is decoded is the normal form, if the version is the one spoken here. -/
theorem decode_encode_eq (h : m.LossReadsBack) :
    decode (encode m) = if m.version = protocolVersion then .ok m.onWire
      else .error (.unsupportedVersion m.version) := by
  have hdecode : decode (encode m) = accept (.ok m.onWire) [] := by
    cases m with
    | request r =>
      -- Either way the value is read as itself, as a number by assumption and as `null` in any case.
      have hloss : Json.IsReadAs r.lossRate.toValue r.lossRate.toValue := by
        unfold Binary64.toValue
        split
        · next hfinite => exact (h r.lossRate rfl hfinite).isReadAs hfinite
        · exact Json.isReadAs_null
      rw [decode_encode_of_isReadAs hloss, clampLoss_looseNumber, onWire]
    | ack a =>
      have hread := decode_print (forall₂_ack a)
      rw [ofMembers_ack] at hread
      rw [onWire]
      exact hread
  rw [hdecode, accept_ok, version_onWire]

/-! ### Plain messages -/

theorem sameTarget_onWire {t : Option Bitrate} (h : ∀ r ∈ t.toList, r.bps.IsCount) :
    sameTarget (t.map Bitrate.onWire) t = true := by
  cases t with
  | none => rfl
  | some r => exact Bitrate.onWire_same (h r (by simp))

/-- A plain message is in its normal form already, but for the sign of zeros. -/
theorem IsPlain.same_onWire (h : m.IsPlain) : m.onWire.same m = true := by
  cases m with
  | request r =>
    obtain ⟨hzero, hone⟩ := h.lossRate r.lossRate rfl
    have hrates := h.rates
    simp only [Message.rates, List.mem_append] at hrates
    have hloss : r.lossRate.same r.lossRate = true := by
      have hne := (Binary64.ne_nan_of_le hzero).2
      exact (Binary64.same_iff_place_eq hne hne).2 rfl
    simp [onWire, same, Caps.Targets.onWire, clampLoss_eq_self hzero hone, hloss,
      sameTarget_onWire fun r hr => hrates r (Or.inl (Or.inl hr)),
      sameTarget_onWire fun r hr => hrates r (Or.inl (Or.inr hr)),
      sameTarget_onWire fun r hr => hrates r (Or.inr hr)]
  | ack a =>
    have hrate := Bitrate.onWire_same (h.rates a.appliedHigh (by simp [Message.rates]))
    simp [Message.onWire, same, hrate]

theorem map_onWire {t : Option Bitrate} (h : ∀ r ∈ t.toList, r.bps.IsWhole) :
    t.map Bitrate.onWire = t := by
  cases t with
  | none => rfl
  | some r => exact congrArg some (Bitrate.onWire_eq_self (h r (by simp)))

/-- Without negative zeros it is the same message. -/
theorem IsPlain.onWire_eq (h : m.IsPlain) (hwhole : ∀ r ∈ m.rates, r.bps.IsWhole) :
    m.onWire = m := by
  cases m with
  | request r =>
    obtain ⟨hzero, hone⟩ := h.lossRate r.lossRate rfl
    simp only [Message.rates, List.mem_append] at hwhole
    simp [onWire, Caps.Targets.onWire, clampLoss_eq_self hzero hone,
      map_onWire fun r hr => hwhole r (Or.inl (Or.inl hr)),
      map_onWire fun r hr => hwhole r (Or.inl (Or.inr hr)),
      map_onWire fun r hr => hwhole r (Or.inr hr)]
  | ack a =>
    have hrate := Bitrate.onWire_eq_self (hwhole a.appliedHigh (by simp [Message.rates]))
    simp [Message.onWire, hrate]

/-- What is decoded is the normal form of the message that was encoded, and a message of another version
is refused. A plain message is found as it was, and what was decoded once is not changed again. -/
theorem decode_encode (m : Message) (h : m.LossReadsBack) :
    decode (encode m) = (if m.version = protocolVersion then .ok m.onWire
      else .error (.unsupportedVersion m.version)) ∧
    (m.version = protocolVersion → m.IsPlain →
      ∃ n, decode (encode m) = .ok n ∧ n.same m = true ∧
        ((∀ r ∈ m.rates, r.bps.IsWhole) → n = m)) ∧
    ∀ n, decode (encode m) = .ok n → decode (encode n) = .ok n := by
  refine ⟨decode_encode_eq h, fun hversion hplain => ?_, fun n hn => ?_⟩
  · refine ⟨m.onWire, ?_, hplain.same_onWire, hplain.onWire_eq⟩
    rw [decode_encode_eq h, if_pos hversion]
  · rw [decode_encode_eq h] at hn
    split at hn
    · next hversion =>
      obtain rfl := Except.ok.inj hn
      rw [decode_encode_eq h.onWire, onWire_onWire, version_onWire, if_pos hversion]
    · cases hn

/-- A request with a target between two words, one that is missing and one that is no number. -/
def fractionalRequest : CapRequest where
  version := protocolVersion
  targets := ⟨some ⟨2500000.5⟩, none, some ⟨.nan⟩⟩
  reason := .severe
  lossRate := 0.0125
  identity := "receiver"

theorem fractional_request_rounded :
    (Message.request fractionalRequest).LossReadsBack ∧
      decode (encode (.request fractionalRequest)) =
        .ok (.request { fractionalRequest with targets := ⟨some (.ofNat 2500001), none, some .zero⟩ }) := by
  have hloss : (Message.request fractionalRequest).LossReadsBack := by
    intro x hx _
    rw [← Option.some.inj hx]
    decide +kernel
  have hwire : (Message.request fractionalRequest).onWire =
      .request { fractionalRequest with
        targets := ⟨some (.ofNat 2500001), none, some .zero⟩ } := by
    decide +kernel
  obtain ⟨hdecode, -⟩ := decode_encode (.request fractionalRequest) hloss
  rw [hwire] at hdecode
  exact ⟨hloss, hdecode.trans (if_pos rfl)⟩

end Message

end Simulcast
