import Simulcast.Proofs.Binary64.Share
import Simulcast.Proofs.Caps.Wire

/-!
# Sanitized caps are in order

A sender can honour caps only if each layer is below the next higher one. Ceilings with room for
that need not be in order themselves, and neither need what a receiver asks for: every target is
first held between the floor and the ceiling of its layer, and then a layer that is not below the
one above it is pulled down to a share of that. Pulling a layer down may take it below its floor,
but no further than to the share of the floor above.

The order survives a minimum that is taken layer by layer over the caps of several receivers, since
the receiver that determines a layer has asked for less in the layers below.

Everything is compared by place, where both zeros are one.

## Main definitions

* `Caps.HasRoom` — ceilings under which three layers can be in order
* `Caps.IsOrdered` — finite caps, each layer below the next higher one

## Main results

* `Caps.isOrdered_sanitize` — sanitized caps are in order
* `Caps.get_sanitize_le` — and no higher than the ceilings
* `Caps.IsMinimum.isOrdered` — the minimum of caps that are in order is in order
-/

namespace Simulcast

open Binary64 (unit IsInteger IsShare)

namespace Binary64

variable {x y : Binary64}

theorem isFinite_min (hx : x.isFinite = true) (hy : y.isFinite = true) :
    (min x y).isFinite = true := by
  rw [min_def (ne_nan_of_isFinite hx) (ne_nan_of_isFinite hy)]
  split <;> assumption

theorem isFinite_max (hx : x.isFinite = true) (hy : y.isFinite = true) :
    (max x y).isFinite = true := by
  rw [max_def (ne_nan_of_isFinite hx) (ne_nan_of_isFinite hy)]
  split <;> assumption

/-- The infinities have places of their own. -/
theorem isFinite_of_place_eq (hx : x ≠ .nan) (hy : y.isFinite = true) (h : x.place = y.place) :
    x.isFinite = true := by
  rcases y with _ | t | ⟨t, n, hn⟩
  · cases hy
  · cases hy
  rcases x with _ | s | ⟨s, m, hm⟩
  · exact absurd rfl hx
  · have hlimit := hn.1
    rw [place_infinity, place_finite] at h
    cases s <;> cases t <;>
      simp only [signed, Bool.false_eq_true, if_true, if_false] at h <;> omega
  · rfl

end Binary64

namespace Bitrate

variable {r s : Bitrate}

theorem le_iff_place_le (hr : r.bps ≠ .nan) (hs : s.bps ≠ .nan) :
    r ≤ s ↔ r.bps.place ≤ s.bps.place := Binary64.le_iff_place_le hr hs

theorem lt_iff_place_lt (hr : r.bps ≠ .nan) (hs : s.bps ≠ .nan) :
    r < s ↔ r.bps.place < s.bps.place := Binary64.lt_iff_place_lt hr hs

end Bitrate

namespace Caps

variable {c ceilings : Caps} {above rate least most : Bitrate} {share : Binary64}

/-- Three layers can be in order below these ceilings, which need not be in order. -/
structure HasRoom (c : Caps) : Prop where
  isInteger : ∀ l, (c.get l).bps.IsInteger
  high : .ofNat 3 ≤ c.high
  medium : .ofNat 2 ≤ c.medium

/-- The caps are finite, and each layer is below the next higher one. -/
structure IsOrdered (c : Caps) : Prop where
  isValid : ∀ l, (c.get l).isValid = true
  low_lt_medium : c.low < c.medium
  medium_lt_high : c.medium < c.high

/-- What each layer can go down to before its ceiling has to be lowered. -/
def lowest : Caps := ⟨.kilo 500, .kilo 300, .kilo 150⟩

/-! ### Bounded targets -/

theorem isInteger_bounded (hleast : least.bps.IsInteger) (hmost : most.bps.IsInteger)
    (r : Bitrate) : (bounded r least most).bps.IsInteger := by
  -- What is not finite gives way to the lower limit, so a finite number is rounded.
  refine Binary64.isInteger_round ?_
  have hlower := Binary64.isFinite_min hleast.isFinite hmost.isFinite
  unfold Bitrate.clamp
  split
  · next hvalid => exact Binary64.isFinite_min (Binary64.isFinite_max hvalid hlower) hmost.isFinite
  · exact hlower

/-- A target is held between its limits. If these are not in order, the upper one counts. -/
theorem place_bounded (hleast : least.bps.IsInteger) (hmost : most.bps.IsInteger) (r : Bitrate) :
    min least.bps.place most.bps.place ≤ (bounded r least most).bps.place ∧
      (bounded r least most).bps.place ≤ most.bps.place := by
  have hrank := rank_bounded hleast hmost r
  have hmin := Binary64.rank_min hleast.ne_nan hmost.ne_nan
  constructor
  · rw [← Binary64.place_min hleast.ne_nan hmost.ne_nan]
    refine Binary64.place_le_of_rank_le ?_
    rw [hrank, hmin]
    split <;> omega
  · refine Binary64.place_le_of_rank_le ?_
    rw [hrank]
    split <;> omega

/-! ### Layers that are pulled apart -/

/-- A layer that is pulled below the one above it is a whole number, and not raised by that. -/
theorem pulled_spec (hshare : share.IsShare) (habove : above.bps.IsInteger)
    (htwo : 2 * (unit : Int) ≤ above.bps.place) (hrate : rate.bps.IsInteger) :
    let pulled := if above ≤ rate then (above * share).round else rate
    pulled.bps.IsInteger ∧ pulled.bps.place < above.bps.place ∧
      pulled.bps.place ≤ rate.bps.place := by
  have hlt : (above * share).round.bps.place < above.bps.place :=
    hshare.place_round_mul_lt habove htwo
  have hle_iff : above ≤ rate ↔ above.bps.place ≤ rate.bps.place :=
    Bitrate.le_iff_place_le habove.ne_nan hrate.ne_nan
  intro pulled
  by_cases hle : above ≤ rate
  · rw [show pulled = (above * share).round from if_pos hle]
    exact ⟨hshare.isInteger_round_mul habove htwo, hlt, hlt.le.trans (hle_iff.1 hle)⟩
  · rw [show pulled = rate from if_neg hle]
    exact ⟨hrate, not_le.1 fun h => hle (hle_iff.2 h), le_rfl⟩

/-- Pulling a layer down does not take it below a lower limit that the share respects. -/
theorem le_pulled {base : Binary64} {lower : Int} (hshare : share.IsShare)
    (hbase : base.IsInteger) (htwo : 2 * (unit : Int) ≤ base.place) (habove : above.bps.IsInteger)
    (hle : base.place ≤ above.bps.place) (hlower : lower ≤ (base * share).round.place)
    (hrate : lower ≤ rate.bps.place) :
    lower ≤ (if above ≤ rate then (above * share).round else rate).bps.place := by
  split
  · exact hlower.trans (hshare.place_round_mul_mono hbase habove htwo hle)
  · exact hrate

/-! ### Sanitized caps -/

theorem isShare_threeFifths : (0.6 : Binary64).IsShare :=
  ⟨by decide +kernel, by decide +kernel, by decide +kernel⟩

theorem isShare_half : (0.5 : Binary64).IsShare :=
  ⟨by decide +kernel, by decide +kernel, by decide +kernel⟩

/-- What the shares come to for the least rates that matter. -/
theorem shares_spec :
    ((Bitrate.ofNat 3).bps * (0.6 : Binary64)).round.place = 2 * unit ∧
      ((floor.get .high).bps * (0.6 : Binary64)).round.place = 300000 * unit ∧
      ((floor.get .medium).bps * (0.5 : Binary64)).round.place = 150000 * unit := by
  decide +kernel

theorem isNumber_lowest : lowest.IsNumber := by
  intro l
  cases l <;> decide +kernel

theorem isInteger_floor (l : Layer) : (floor.get l).bps.IsInteger := (isWhole_floor l).isInteger

/-- The places of the rates that others are compared to. -/
theorem places_spec :
    ((Bitrate.ofNat 2).bps.place = 2 * unit ∧ (Bitrate.ofNat 3).bps.place = 3 * unit) ∧
      (floor.place .high = 500000 * unit ∧ floor.place .medium = 300000 * unit ∧
        floor.place .low = 200000 * unit) ∧
      (lowest.place .high = 500000 * unit ∧ lowest.place .medium = 300000 * unit ∧
        lowest.place .low = 150000 * unit) := by
  decide +kernel

theorem HasRoom.place_high (h : ceilings.HasRoom) : 3 * (unit : Int) ≤ ceilings.place .high := by
  have hthree : (Bitrate.ofNat 3).bps.IsInteger := (Bitrate.isWhole_ofNat (by decide)).isInteger
  have hle : .ofNat 3 ≤ ceilings.get .high := h.high
  rw [Bitrate.le_iff_place_le hthree.ne_nan (h.isInteger .high).ne_nan, places_spec.1.2] at hle
  exact hle

theorem HasRoom.place_medium (h : ceilings.HasRoom) :
    2 * (unit : Int) ≤ ceilings.place .medium := by
  have htwo : (Bitrate.ofNat 2).bps.IsInteger := (Bitrate.isWhole_ofNat (by decide)).isInteger
  have hle : .ofNat 2 ≤ ceilings.get .medium := h.medium
  rw [Bitrate.le_iff_place_le htwo.ne_nan (h.isInteger .medium).ne_nan, places_spec.1.1] at hle
  exact hle

section Sanitize

variable (h : ceilings.HasRoom) (t : Targets)
include h

theorem high_sanitize :
    ((sanitize t ceilings).get .high).bps.IsInteger ∧
      min (floor.place .high) (ceilings.place .high) ≤ (sanitize t ceilings).place .high ∧
      (sanitize t ceilings).place .high ≤ ceilings.place .high :=
  ⟨isInteger_bounded (isInteger_floor .high) (h.isInteger .high) _,
    place_bounded (isInteger_floor .high) (h.isInteger .high) _⟩

theorem three_le_high_sanitize : 3 * (unit : Int) ≤ (sanitize t ceilings).place .high := by
  have hroom := h.place_high
  have hfloor := places_spec.2.1
  have hlower := (high_sanitize h t).2.1
  omega

/-- The medium layer is below the high layer and its own ceiling. -/
theorem medium_sanitize :
    ((sanitize t ceilings).get .medium).bps.IsInteger ∧
      (sanitize t ceilings).place .medium < (sanitize t ceilings).place .high ∧
      (sanitize t ceilings).place .medium ≤ ceilings.place .medium := by
  have hthree := three_le_high_sanitize h t
  have htwo : 2 * (unit : Int) ≤ (sanitize t ceilings).place .high := by omega
  obtain ⟨hinteger, hlt, hle⟩ := pulled_spec isShare_threeFifths (high_sanitize h t).1 htwo
    (isInteger_bounded (isInteger_floor .medium) (h.isInteger .medium)
      (t.medium.getD ((sanitize t ceilings).high * mediumShare).round))
  exact ⟨hinteger, hlt,
    hle.trans (place_bounded (isInteger_floor .medium) (h.isInteger .medium) _).2⟩

/-- How far the medium layer can go down depends on what the high layer does not fall below. -/
theorem le_medium_sanitize {base : Bitrate} (hbase : base.bps.IsInteger)
    (htwo : 2 * (unit : Int) ≤ base.bps.place)
    (hhigh : base.bps.place ≤ (sanitize t ceilings).place .high) :
    min (min (floor.place .medium) (ceilings.place .medium))
        (base.bps * (0.6 : Binary64)).round.place ≤ (sanitize t ceilings).place .medium :=
  le_pulled isShare_threeFifths hbase htwo (high_sanitize h t).1 hhigh (min_le_right _ _)
    ((min_le_left _ _).trans
      (place_bounded (isInteger_floor .medium) (h.isInteger .medium) _).1)

theorem two_le_medium_sanitize : 2 * (unit : Int) ≤ (sanitize t ceilings).place .medium := by
  obtain ⟨⟨-, hthree⟩, ⟨-, hfloor, -⟩, -⟩ := places_spec
  have hbase : (Bitrate.ofNat 3).bps.IsInteger := (Bitrate.isWhole_ofNat (by decide)).isInteger
  have hhigh := three_le_high_sanitize h t
  have hroom := h.place_medium
  have hlower := le_medium_sanitize h t hbase (by rw [hthree]; omega) (by rw [hthree]; exact hhigh)
  rw [shares_spec.1] at hlower
  omega

/-- The low layer is below the medium layer and its own ceiling. -/
theorem low_sanitize :
    ((sanitize t ceilings).get .low).bps.IsInteger ∧
      (sanitize t ceilings).place .low < (sanitize t ceilings).place .medium ∧
      (sanitize t ceilings).place .low ≤ ceilings.place .low := by
  obtain ⟨hinteger, hlt, hle⟩ := pulled_spec isShare_half (medium_sanitize h t).1
    (two_le_medium_sanitize h t) (isInteger_bounded (isInteger_floor .low) (h.isInteger .low)
      (t.low.getD ((sanitize t ceilings).high * lowShare).round))
  exact ⟨hinteger, hlt, hle.trans (place_bounded (isInteger_floor .low) (h.isInteger .low) _).2⟩

/-- How far the low layer can go down depends on what the medium layer does not fall below. -/
theorem le_low_sanitize {base : Bitrate} (hbase : base.bps.IsInteger)
    (htwo : 2 * (unit : Int) ≤ base.bps.place)
    (hmedium : base.bps.place ≤ (sanitize t ceilings).place .medium) :
    min (min (floor.place .low) (ceilings.place .low))
        (base.bps * (0.5 : Binary64)).round.place ≤ (sanitize t ceilings).place .low :=
  le_pulled isShare_half hbase htwo (medium_sanitize h t).1 hmedium (min_le_right _ _)
    ((min_le_left _ _).trans (place_bounded (isInteger_floor .low) (h.isInteger .low) _).1)

theorem isInteger_sanitize (l : Layer) : ((sanitize t ceilings).get l).bps.IsInteger := by
  cases l with
  | high => exact (high_sanitize h t).1
  | medium => exact (medium_sanitize h t).1
  | low => exact (low_sanitize h t).1

/-- Sanitized caps are in order. -/
theorem isOrdered_sanitize : (sanitize t ceilings).IsOrdered := by
  have hnumber := isNumber_sanitize t ceilings
  refine ⟨fun l => (isInteger_sanitize h t l).isFinite, ?_, ?_⟩
  · exact (Bitrate.lt_iff_place_lt (hnumber .low) (hnumber .medium)).2 (low_sanitize h t).2.1
  · exact (Bitrate.lt_iff_place_lt (hnumber .medium) (hnumber .high)).2 (medium_sanitize h t).2.1

/-- Sanitized caps are no higher than the ceilings. -/
theorem get_sanitize_le (l : Layer) : (sanitize t ceilings).get l ≤ ceilings.get l := by
  rw [le_iff_place_le (isNumber_sanitize t ceilings) fun l => (h.isInteger l).ne_nan]
  cases l with
  | high => exact (high_sanitize h t).2.2
  | medium => exact (medium_sanitize h t).2.2
  | low => exact (low_sanitize h t).2.2

/-- The high layer is pulled down by nothing but its ceiling. -/
theorem min_floor_le_high_sanitize :
    min floor.high ceilings.high ≤ (sanitize t ceilings).high := by
  have hfloor : floor.high.bps ≠ .nan := isNumber_floor .high
  have hceiling : ceilings.high.bps ≠ .nan := (h.isInteger .high).ne_nan
  have hmin : (min floor.high ceilings.high).bps ≠ .nan := Binary64.min_ne_nan hfloor
  refine (Bitrate.le_iff_place_le hmin (isNumber_sanitize t ceilings .high)).2 ?_
  rw [Bitrate.bps_min, Binary64.place_min hfloor hceiling]
  exact (high_sanitize h t).2.1

end Sanitize

/-- What the layers do not fall below if the ceilings are no lower than the floors. -/
theorem lowest_le_sanitize (h : ceilings.HasRoom) (hfloor : ∀ l, floor.get l ≤ ceilings.get l)
    (t : Targets) : ∀ l, lowest.get l ≤ (sanitize t ceilings).get l := by
  obtain ⟨-, ⟨hfloorHigh, hfloorMedium, hfloorLow⟩, hlowestHigh, hlowestMedium, hlowestLow⟩ :=
    places_spec
  have hplace : ∀ l, floor.place l ≤ ceilings.place l := fun l =>
    (le_iff_place_le isNumber_floor (fun l => (h.isInteger l).ne_nan) l).1 (hfloor l)
  -- From layer to layer, the lower limit of one is what the next one takes its share of.
  have hhigh := (high_sanitize h t).2.1
  rw [min_eq_left (hplace .high)] at hhigh
  have htwoHigh : 2 * (unit : Int) ≤ floor.place .high := by omega
  have hmedium := le_medium_sanitize h t (isInteger_floor .high) htwoHigh hhigh
  rw [shares_spec.2.1, min_eq_left (hplace .medium)] at hmedium
  have htwoMedium : 2 * (unit : Int) ≤ floor.place .medium := by omega
  have hbelow : floor.place .medium ≤ (sanitize t ceilings).place .medium := by omega
  have hlow := le_low_sanitize h t (isInteger_floor .medium) htwoMedium hbelow
  rw [shares_spec.2.2, min_eq_left (hplace .low)] at hlow
  intro l
  rw [le_iff_place_le isNumber_lowest (isNumber_sanitize t ceilings)]
  cases l <;> omega

/-! ### The minimum -/

theorem IsOrdered.isNumber (h : c.IsOrdered) : c.IsNumber := fun l =>
  Binary64.ne_nan_of_isFinite (h.isValid l)

/-- If all caps are below the ceilings, the ceilings contribute nothing to the minimum. -/
theorem IsMinimum.exists_place_eq {s : Set Caps} (h : c.IsMinimum {d | d = ceilings ∨ d ∈ s})
    (hs : ∀ d ∈ s, d.IsNumber) (hnonempty : s.Nonempty)
    (hle : ∀ d ∈ s, ∀ l, d.get l ≤ ceilings.get l) (l : Layer) :
    ∃ d ∈ s, c.place l = d.place l := by
  obtain ⟨d, rfl | hd, hsame⟩ := h.attained l
  · -- A layer that is at its ceiling is at least as high for every receiver, and not higher.
    obtain ⟨e, he⟩ := hnonempty
    have hdown := Binary64.place_eq_of_same hsame
    have hbelow := (le_iff_place_le h.isNumber (hs e he) l).1 (h.le e (Or.inr he) l)
    have habove := (Bitrate.le_iff_place_le (hs e he l) (Binary64.ne_nan_of_same hsame).2).1
      (hle e he l)
    exact ⟨e, he, le_antisymm hbelow (habove.trans hdown.ge)⟩
  · exact ⟨d, hd, Binary64.place_eq_of_same hsame⟩

/-- The minimum of the ceilings and of some caps below them is in order if these are. -/
theorem IsMinimum.isOrdered {s : Set Caps} (h : c.IsMinimum {d | d = ceilings ∨ d ∈ s})
    (hs : ∀ d ∈ s, d.IsOrdered) (hnonempty : s.Nonempty)
    (hle : ∀ d ∈ s, ∀ l, d.get l ≤ ceilings.get l) : c.IsOrdered := by
  have hnumber : ∀ d ∈ s, d.IsNumber := fun d hd => (hs d hd).isNumber
  have hplace := h.exists_place_eq hnumber hnonempty hle
  have hbelow : ∀ d ∈ s, ∀ l, c.place l ≤ d.place l := fun d hd l =>
    (le_iff_place_le h.isNumber (hnumber d hd) l).1 (h.le d (Or.inr hd) l)
  refine ⟨fun l => ?_, ?_, ?_⟩
  · obtain ⟨d, hd, heq⟩ := hplace l
    exact Binary64.isFinite_of_place_eq (h.isNumber l) ((hs d hd).isValid l) heq
  · -- Who determines the medium layer has a lower low layer.
    obtain ⟨d, hd, heq⟩ := hplace .medium
    refine (Bitrate.lt_iff_place_lt (h.isNumber .low) (h.isNumber .medium)).2 ?_
    calc c.place .low ≤ d.place .low := hbelow d hd .low
      _ < d.place .medium := (Bitrate.lt_iff_place_lt (hnumber d hd .low)
        (hnumber d hd .medium)).1 (hs d hd).low_lt_medium
      _ = c.place .medium := heq.symm
  · obtain ⟨d, hd, heq⟩ := hplace .high
    refine (Bitrate.lt_iff_place_lt (h.isNumber .medium) (h.isNumber .high)).2 ?_
    calc c.place .medium ≤ d.place .medium := hbelow d hd .medium
      _ < d.place .high := (Bitrate.lt_iff_place_lt (hnumber d hd .medium)
        (hnumber d hd .high)).1 (hs d hd).medium_lt_high
      _ = c.place .high := heq.symm

end Caps

end Simulcast
