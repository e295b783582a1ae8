import Simulcast.Proofs.Binary64.Monotone
import Simulcast.Proofs.Caps.Minimum

/-!
# Sanitized caps

Whatever a receiver asks for, and whatever the ceilings are, the caps that its request stands for
are numbers.

## Main results

* `Caps.isNumber_sanitize` — sanitized caps hold no NaN
-/

namespace Simulcast

namespace Binary64

variable {x y : Binary64}

theorem ofMagnitude_ne_nan (s : Bool) (m : Nat) : ofMagnitude s m ≠ .nan := by
  unfold ofMagnitude
  split <;> simp

theorem nearest_ne_nan (s : Bool) (num den : Nat) : nearest s num den ≠ .nan :=
  ofMagnitude_ne_nan s _

theorem round_ne_nan (h : x ≠ .nan) : x.round ≠ .nan := by
  cases x with
  | nan => exact absurd rfl h
  | infinity s => simp [round]
  | finite s m hm => exact ofMagnitude_ne_nan s _

theorem infinity_mul_finite (s t : Bool) {n : Nat} (hn : Representable n) :
    infinity s * finite t n hn = if n = 0 then nan else infinity (s ^^ t) := by
  simp only [HMul.hMul, Mul.mul, Binary64.mul]

/-- Only zero times an infinity is NaN, so a positive factor never leads there. -/
theorem mul_ne_nan (hx : x ≠ .nan) (hy : y.isFinite = true) (hpos : 0 < y.place) :
    x * y ≠ .nan := by
  rcases y with _ | t | ⟨t, n, hn⟩
  · simp [isFinite] at hy
  · simp [isFinite] at hy
  have hne : n ≠ 0 := by
    rintro rfl
    cases t <;> simp [signed] at hpos
  cases x with
  | nan => exact absurd rfl hx
  | infinity s =>
    rw [infinity_mul_finite, if_neg hne]
    simp
  | finite s m hm =>
    rw [finite_mul_finite]
    exact nearest_ne_nan _ _ _

end Binary64

theorem Bitrate.clamp_ne_nan (r : Bitrate) {least : Bitrate} (most : Bitrate)
    (h : least.bps ≠ .nan) : (r.clamp least most).bps ≠ .nan := by
  unfold clamp
  split
  · next hvalid =>
    exact Binary64.min_ne_nan (Binary64.max_ne_nan (Binary64.ne_nan_of_isFinite hvalid))
  · exact Binary64.min_ne_nan h

namespace Caps

theorem bounded_ne_nan (target : Bitrate) {least : Bitrate} (most : Bitrate)
    (h : least.bps ≠ .nan) : (bounded target least most).bps ≠ .nan :=
  Binary64.round_ne_nan (target.clamp_ne_nan most h)

theorem isNumber_floor : floor.IsNumber := by
  intro l
  cases l <;> decide +kernel

theorem isNumber_standard : standard.IsNumber := by
  intro l
  cases l <;> decide +kernel

/-- Caps that follow from a number are numbers. -/
theorem isNumber_ofHigh {high : Bitrate} (h : high.bps ≠ .nan) : (ofHigh high).IsNumber := by
  have hround : high.round.bps ≠ .nan := Binary64.round_ne_nan h
  have hmedium : (high.round * mediumShare).bps ≠ .nan :=
    Binary64.mul_ne_nan hround (by decide +kernel) (by decide +kernel)
  have hlow : (high.round * lowShare).bps ≠ .nan :=
    Binary64.mul_ne_nan hround (by decide +kernel) (by decide +kernel)
  intro l
  cases l with
  | high => exact hround
  | medium => exact Binary64.round_ne_nan hmedium
  | low => exact Binary64.round_ne_nan hlow

/-- A layer that is pulled below the one above it is a part of that. -/
theorem pulled_ne_nan {above rate : Bitrate} {share : Binary64} (hfinite : share.isFinite = true)
    (hpos : 0 < share.place) (habove : above.bps ≠ .nan) (hrate : rate.bps ≠ .nan) :
    (if above ≤ rate then (above * share).round else rate).bps ≠ .nan := by
  split
  · exact Binary64.round_ne_nan (Binary64.mul_ne_nan habove hfinite hpos)
  · exact hrate

/-- Sanitized caps hold no NaN. -/
theorem isNumber_sanitize (t : Targets) (ceilings : Caps) : (sanitize t ceilings).IsNumber := by
  have hhigh : (sanitize t ceilings).high.bps ≠ .nan :=
    bounded_ne_nan _ _ (isNumber_floor .high)
  have hmedium : (sanitize t ceilings).medium.bps ≠ .nan :=
    pulled_ne_nan (by decide +kernel) (by decide +kernel) hhigh
      (bounded_ne_nan _ _ (isNumber_floor .medium))
  have hlow : (sanitize t ceilings).low.bps ≠ .nan :=
    pulled_ne_nan (by decide +kernel) (by decide +kernel) hmedium
      (bounded_ne_nan _ _ (isNumber_floor .low))
  intro l
  cases l with
  | high => exact hhigh
  | medium => exact hmedium
  | low => exact hlow

end Caps

end Simulcast
