import Simulcast.Proofs.Caps.Sanitize
import Simulcast.Proofs.Message.NormalForm

/-!
# Sanitizing after the wire

A target that is sent is rounded to a word first, and clamped by the publisher. A target that is not
sent is clamped first and rounded then. The two agree: rounding keeps the order, so that it may be done
before the target is compared to limits that are whole, and what the wire cuts off lies beyond the
limits in any case. What is not finite is sent as zero, and that ends up at the lower limit as well.

Everything is compared by rank, since the limits may include a negative zero.

## Main results

* `Binary64.rank_round_mono` — rounding to integers keeps the order
* `Caps.bounded_onWire` — one target
* `Caps.sanitize_onWire` — all of them
-/

namespace Simulcast

namespace Binary64

variable {x y : Binary64}

theorem rank_round_finite (s : Bool) {m : Nat} (h : Representable m) :
    (finite s m h).round.rank =
      if s then -((wholeMagnitude m * unit : Nat) : Int) - 1 else (wholeMagnitude m * unit : Nat) := by
  rw [round_finite_eq, rank_finite]

/-- Rounding to integers keeps the order. -/
theorem rank_round_mono (hx : x ≠ .nan) (hy : y ≠ .nan) (h : x.rank ≤ y.rank) :
    x.round.rank ≤ y.round.rank := by
  rcases x with _ | s | ⟨s, m, hm⟩
  · exact absurd rfl hx
  · rcases y with _ | t | ⟨t, n, hn⟩
    · exact absurd rfl hy
    · exact h
    · -- Only the negative infinity is below a finite number.
      have hlt := hn.1
      have hround := (representable_wholeMagnitude hn).1
      rw [rank_round_finite]
      rw [rank_finite] at h
      change (infinity s).rank ≤ _
      cases s <;> cases t <;>
        simp only [rank, if_true, Bool.false_eq_true, if_false] at h ⊢ <;> omega
  · rcases y with _ | t | ⟨t, n, hn⟩
    · exact absurd rfl hy
    · have hlt := hm.1
      have hround := (representable_wholeMagnitude hm).1
      rw [rank_round_finite]
      rw [rank_finite] at h
      change _ ≤ (infinity t).rank
      cases s <;> cases t <;>
        simp only [rank, if_true, Bool.false_eq_true, if_false] at h ⊢ <;> omega
    · have hmono : ∀ {k l : Nat}, k ≤ l → wholeMagnitude k * unit ≤ wholeMagnitude l * unit :=
        fun hle => Nat.mul_le_mul_right unit (wholeMagnitude_mono hle)
      rw [rank_round_finite, rank_round_finite]
      rw [rank_finite, rank_finite] at h
      cases s <;> cases t <;> simp only [if_true, Bool.false_eq_true, if_false] at h ⊢
      · have hle := hmono (Int.ofNat_le.1 h)
        omega
      · omega
      · omega
      · have hle := hmono (k := n) (l := m) (by omega)
        omega

theorem round_min (hx : x ≠ .nan) (hy : y ≠ .nan) : (min x y).round = min x.round y.round := by
  rcases le_total x.rank y.rank with h | h
  · rw [min_eq_left_of_rank hx hy h, min_eq_left_of_rank (round_ne_nan hx) (round_ne_nan hy)
      (rank_round_mono hx hy h)]
  · rw [min_eq_right_of_rank hx hy h, min_eq_right_of_rank (round_ne_nan hx) (round_ne_nan hy)
      (rank_round_mono hy hx h)]

theorem round_max (hx : x ≠ .nan) (hy : y ≠ .nan) : (max x y).round = max x.round y.round := by
  rcases le_total x.rank y.rank with h | h
  · rw [max_eq_right_of_rank hx hy h, max_eq_right_of_rank (round_ne_nan hx) (round_ne_nan hy)
      (rank_round_mono hx hy h)]
  · rw [max_eq_left_of_rank hx hy h, max_eq_left_of_rank (round_ne_nan hx) (round_ne_nan hy)
      (rank_round_mono hy hx h)]

/-! ### Limits -/

theorem IsCount.rank_le (h : x.IsCount) : x.rank ≤ ((powTwo 64 * unit : Nat) : Int) := by
  rcases h with ⟨k, hk, hle, rfl⟩ | rfl
  · exact Int.ofNat_le.2 (Nat.mul_le_mul_right unit hle)
  · rw [signedZero, rank_finite, if_pos rfl]
    exact le_trans (by decide) (Int.natCast_nonneg _)

end Binary64

/-! ### Rates on the wire -/

/-- The first number past the words, which is also where the largest word is rounded to. -/
theorem Binary64.representable_top : Representable (powTwo 64 * unit) := by
  have hlt := mul_unit_lt_limit (Nat.le_refl (powTwo 64))
  rw [powTwo_mul_unit, ← Nat.one_mul (powTwo _)] at hlt ⊢
  exact representable_mul_powTwo (powTwo_pos 53) hlt

/-- Zero, before and after it was rounded to a word. -/
theorem Binary64.toWord_zero :
    (0 : Binary64) ≠ .nan ∧ (0 : Binary64).rank = 0 ∧ (0 : Binary64).round.toWord = 0 := by
  decide +kernel

namespace Bitrate

open Binary64 (unit maxWord Representable)

theorem eq_of_bps {r s : Bitrate} (h : r.bps = s.bps) : r = s := by
  cases r
  cases s
  exact congrArg mk h

/-- A rounded rate without a sign keeps its place up to the first number past the words. -/
theorem rank_ofNat_toWord {k : Nat} (h : Representable (k * unit)) :
    (Binary64.ofNat (min k maxWord)).rank = min ((k * unit : Nat) : Int) (powTwo 64 * unit : Nat) := by
  rcases Nat.lt_or_ge maxWord k with hlt | hge
  · have hle : powTwo 64 * unit ≤ k * unit := Nat.mul_le_mul_right unit hlt
    rw [Nat.min_eq_right hlt.le, Binary64.ofNat_maxWord,
      Binary64.ofMagnitude_eq_finite Binary64.representable_top, Binary64.rank_finite,
      if_neg Bool.false_ne_true, min_eq_right (Int.ofNat_le.2 hle)]
  · have hle : k * unit ≤ powTwo 64 * unit :=
      Nat.mul_le_mul_right unit (hge.trans (Nat.sub_le _ _))
    have hword : Binary64.ofNat k = .finite false (k * unit) h :=
      Binary64.nearest_of_representable h false
    rw [Nat.min_eq_left hge, hword, Binary64.rank_finite, if_neg Bool.false_ne_true,
      min_eq_left (Int.ofNat_le.2 hle)]

/-- A rate on the wire is the rounded rate, held between zero and the first number past the words. -/
theorem rank_onWire (r : Bitrate) :
    r.onWire.bps.rank =
      if r.isValid then min (max r.bps.round.rank 0) (powTwo 64 * unit : Nat) else 0 := by
  obtain ⟨hzero_ne, hzero, hzero_word⟩ := Binary64.toWord_zero
  rw [bps_onWire, Binary64.ofInt_natCast, whole]
  split
  · next hvalid =>
    obtain ⟨x⟩ := r
    rcases x with _ | s | ⟨s, m, h⟩
    · cases hvalid
    · cases hvalid
    have hne : Binary64.finite s m h ≠ .nan := by simp
    cases s with
    | true =>
      -- A negative rate is sent as zero, and rounding leaves it below zero.
      have hword : (max (Binary64.finite true m h) 0).round.toWord = 0 := by
        rw [Binary64.max_eq_right_of_rank hne hzero_ne]
        · exact hzero_word
        · rw [hzero]
          exact (not_le.1 (Binary64.rank_neg_finite h)).le
      change (Binary64.ofNat (max (Binary64.finite true m h) 0).round.toWord).rank =
        min (max (Binary64.finite true m h).round.rank 0) _
      rw [hword, Binary64.rank_round_finite, if_pos rfl]
      refine hzero.trans ?_
      omega
    | false =>
      have hmax : max (Binary64.finite false m h) 0 = .finite false m h := by
        refine Binary64.max_eq_left_of_rank hne hzero_ne ?_
        rw [hzero, Binary64.rank_finite, if_neg Bool.false_ne_true]
        exact Int.natCast_nonneg m
      have hround := Binary64.round_finite_eq false h
      change (Binary64.ofNat (max (Binary64.finite false m h) 0).round.toWord).rank =
        min (max (Binary64.finite false m h).round.rank 0) _
      rw [hmax, hround, Binary64.toWord_mul_unit,
        rank_ofNat_toWord (Binary64.representable_wholeMagnitude h), Binary64.rank_finite,
        if_neg Bool.false_ne_true, max_eq_left (Int.natCast_nonneg _)]
  · exact hzero

end Bitrate

/-! ### Targets -/

namespace Caps

variable {r least most : Bitrate}

/-- The rank of a target between limits that are integers. -/
theorem rank_bounded (hleast : least.bps.IsInteger) (hmost : most.bps.IsInteger) (r : Bitrate) :
    (bounded r least most).bps.rank =
      if r.isValid then
        min (max r.bps.round.rank (min least.bps.rank most.bps.rank)) most.bps.rank
      else min least.bps.rank most.bps.rank := by
  have hlower_ne : (min least most).bps ≠ .nan := Binary64.min_ne_nan hleast.ne_nan
  have hlower : (min least most).bps.round = (min least most).bps := by
    rw [Bitrate.bps_min, Binary64.round_min hleast.ne_nan hmost.ne_nan, hleast.round, hmost.round]
  have hrank : (min least most).bps.rank = min least.bps.rank most.bps.rank := by
    rw [Bitrate.bps_min, Binary64.rank_min hleast.ne_nan hmost.ne_nan]
  rw [bounded, Bitrate.clamp]
  split
  · next hvalid =>
    have hr := Binary64.ne_nan_of_isFinite hvalid
    change (min (max r.bps (min least most).bps) most.bps).round.rank = _
    -- The limits are whole, so that only the target itself is rounded.
    rw [Binary64.round_min (Binary64.max_ne_nan hr) hmost.ne_nan,
      Binary64.round_max hr hlower_ne, hlower, hmost.round,
      Binary64.rank_min (Binary64.max_ne_nan (Binary64.round_ne_nan hr)) hmost.ne_nan,
      Binary64.rank_max (Binary64.round_ne_nan hr) hlower_ne, hrank]
  · change (min least most).bps.round.rank = _
    rw [hlower, hrank]

/-- It makes no difference to a bounded target whether it was sent. -/
theorem bounded_onWire (hleast : least.bps.IsWhole) (hmost : most.bps.IsCount) (r : Bitrate) :
    bounded r.onWire least most = bounded r least most := by
  have hwire := r.isWhole_onWire
  refine Bitrate.eq_of_bps (Binary64.rank_injective (bounded_ne_nan _ _ hleast.ne_nan)
    (bounded_ne_nan _ _ hleast.ne_nan) ?_)
  rw [rank_bounded hleast.isInteger hmost.isInteger, rank_bounded hleast.isInteger hmost.isInteger,
    if_pos hwire.isValid, hwire.round, r.rank_onWire]
  have hzero := hleast.rank_nonneg
  have htop := hmost.rank_le
  generalize ((powTwo 64 * Binary64.unit : Nat) : Int) = top at htop ⊢
  split <;> omega

theorem isWhole_floor (l : Layer) : (floor.get l).bps.IsWhole := by
  have hword : ∀ n, n < powTwo 64 → (Bitrate.ofNat n).bps.IsWhole := fun n => Bitrate.isWhole_ofNat
  cases l <;> exact hword _ (by decide)

/-- The caps that a request stands for are the same after it was sent. -/
theorem sanitize_onWire (t : Targets) {ceilings : Caps}
    (h : ∀ l, (ceilings.get l).bps.IsCount) : sanitize t.onWire ceilings = sanitize t ceilings := by
  have hbounded : ∀ (l : Layer) (target : Option Bitrate) (default : Bitrate),
      bounded ((target.map Bitrate.onWire).getD default) (floor.get l) (ceilings.get l) =
        bounded (target.getD default) (floor.get l) (ceilings.get l) := by
    intro l target default
    cases target with
    | none => rfl
    | some r => exact bounded_onWire (isWhole_floor l) (h l) r
  have hhigh := hbounded .high t.high
  have hmedium := hbounded .medium t.medium
  have hlow := hbounded .low t.low
  simp only [get] at hhigh hmedium hlow
  simp only [sanitize, Targets.onWire, hhigh, hmedium, hlow]

end Caps

end Simulcast
