import Simulcast.Proofs.Binary64.Whole

/-!
# Rates between limits and on the wire

What is put on the wire is a word, and what is held between limits is one of them or lies between
them. For whole rates neither loses anything: a whole rate survives the way to a word and back, and
holding it between limits leaves it as it is if it lies between them already.

The limits may be any integers, also negative ones and ones that no word can count. Only what lies
between zero and a whole limit is whole again.

## Main results

* `Bitrate.ofInt_whole` — a whole rate survives the way to a word and back
* `Bitrate.rank_clamp`, `Bitrate.rank_clamp_between` — where a rate is after it was held between limits
* `Bitrate.isInteger_clamp_round` — a rate that was rounded and held between integers is an integer
* `Bitrate.clamp_eq_self` — a rate between the limits is left as it is
* `Binary64.IsInteger.isWhole` — an integer from zero up to a whole number is whole
-/

namespace Simulcast

namespace Binary64

variable {x y : Binary64}

/-! ### Selection by rank -/

theorem rank_injective (hx : x ≠ .nan) (hy : y ≠ .nan) (h : x.rank = y.rank) : x = y := by
  rcases x with _ | s | ⟨s, m, hm⟩
  · exact absurd rfl hx
  · rcases y with _ | t | ⟨t, n, hn⟩
    · exact absurd rfl hy
    · cases s <;> cases t <;> simp only [rank] at h <;> first | rfl | grind
    · have hlt := hn.1
      cases s <;> cases t <;> simp only [rank] at h <;> grind
  · have hlt := hm.1
    rcases y with _ | t | ⟨t, n, hn⟩
    · exact absurd rfl hy
    · cases s <;> cases t <;> simp only [rank] at h <;> grind
    · cases s <;> cases t <;> simp only [rank] at h <;> grind

theorem min_eq_left_of_rank (hx : x ≠ .nan) (hy : y ≠ .nan) (h : x.rank ≤ y.rank) :
    min x y = x := by
  rw [min_def hx hy, if_pos h]

theorem min_eq_right_of_rank (hx : x ≠ .nan) (hy : y ≠ .nan) (h : y.rank ≤ x.rank) :
    min x y = y := by
  rw [min_def hx hy]
  split
  · next hle => exact rank_injective hx hy (le_antisymm hle h)
  · rfl

theorem max_eq_left_of_rank (hx : x ≠ .nan) (hy : y ≠ .nan) (h : y.rank ≤ x.rank) :
    max x y = x := by
  rw [max_def hx hy]
  split
  · next hle => exact (rank_injective hx hy (le_antisymm hle h)).symm
  · rfl

theorem max_eq_right_of_rank (hx : x ≠ .nan) (hy : y ≠ .nan) (h : x.rank ≤ y.rank) :
    max x y = y := by
  rw [max_def hx hy, if_pos h]

theorem min_choice (hx : x ≠ .nan) (hy : y ≠ .nan) : min x y = x ∨ min x y = y := by
  rw [min_def hx hy]
  split
  · exact Or.inl rfl
  · exact Or.inr rfl

theorem max_choice (hx : x ≠ .nan) (hy : y ≠ .nan) : max x y = x ∨ max x y = y := by
  rw [max_def hx hy]
  split
  · exact Or.inr rfl
  · exact Or.inl rfl

theorem rank_min (hx : x ≠ .nan) (hy : y ≠ .nan) : (min x y).rank = min x.rank y.rank := by
  rw [min_def hx hy]
  split
  · next h => exact (min_eq_left h).symm
  · next h => exact (min_eq_right (not_le.1 h).le).symm

theorem rank_max (hx : x ≠ .nan) (hy : y ≠ .nan) : (max x y).rank = max x.rank y.rank := by
  rw [max_def hx hy]
  split
  · next h => exact (max_eq_right h).symm
  · next h => exact (max_eq_left (not_le.1 h).le).symm

/-! ### Whole numbers as words -/

theorem IsWhole.isFinite (h : x.IsWhole) : x.isFinite = true := h.isInteger.isFinite

theorem IsWhole.isValid {r : Bitrate} (h : r.bps.IsWhole) : r.isValid = true := h.isFinite

theorem toWord_finite (s : Bool) (m : Nat) (h : Representable m) :
    (finite s m h).toWord = if s then 0 else min (m / unit) maxWord := rfl

theorem rank_finite (s : Bool) (m : Nat) (h : Representable m) :
    (finite s m h).rank = if s then -(m : Int) - 1 else m := rfl

theorem round_finite (s : Bool) (m : Nat) (h : Representable m) :
    (finite s m h).round = ofMagnitude s (wholeMagnitude m * unit) := rfl

theorem rank_neg_finite {m : Nat} (h : Representable m) : ¬ 0 ≤ (finite true m h).rank := by
  rw [rank_finite, if_pos rfl]
  omega

/-- What is finite after rounding is an integer. -/
theorem isInteger_round_of_isFinite (h : x.round.isFinite = true) : x.round.IsInteger := by
  rcases x with _ | s | ⟨s, m, hm⟩
  · simp [round, isFinite] at h
  · simp [round, isFinite] at h
  · rw [round_finite] at h ⊢
    by_cases hrep : Representable (wholeMagnitude m * unit)
    · exact ⟨s, wholeMagnitude m, hrep, ofMagnitude_eq_finite hrep s⟩
    · rw [ofMagnitude, dif_neg hrep] at h
      cases h

theorem IsInteger.min (hx : x.IsInteger) (hy : y.IsInteger) : (min x y).IsInteger := by
  rcases min_choice hx.ne_nan hy.ne_nan with h | h
  · rw [h]
    exact hx
  · rw [h]
    exact hy

theorem IsInteger.max (hx : x.IsInteger) (hy : y.IsInteger) : (max x y).IsInteger := by
  rcases max_choice hx.ne_nan hy.ne_nan with h | h
  · rw [h]
    exact hx
  · rw [h]
    exact hy

theorem zero_eq : (0 : Binary64) = signedZero false := by decide +kernel

theorem IsWhole.rank_nonneg (h : x.IsWhole) : 0 ≤ x.rank := by
  obtain ⟨k, hk, -, rfl⟩ := h
  rw [rank_finite, if_neg Bool.false_ne_true]
  exact Int.natCast_nonneg _

theorem IsWhole.place_eq_rank (h : x.IsWhole) : x.place = x.rank := by
  rw [place_eq_of_rank, if_neg (not_lt.2 h.rank_nonneg)]

/-- Whole numbers in the same place are the same. -/
theorem IsWhole.eq_of_place (hx : x.IsWhole) (hy : y.IsWhole) (h : x.place = y.place) : x = y := by
  rw [hx.place_eq_rank, hy.place_eq_rank] at h
  exact rank_injective hx.ne_nan hy.ne_nan h

/-- An integer from zero up to a whole number is whole. -/
theorem IsInteger.isWhole (hx : x.IsInteger) (hy : y.IsWhole) (hnonneg : 0 ≤ x.rank)
    (hle : x.rank ≤ y.rank) : x.IsWhole := by
  obtain ⟨s, w, hrep, rfl⟩ := hx
  obtain ⟨k, hk, hkle, rfl⟩ := hy
  -- A negative number, negative zero included, is below zero in this order.
  cases s with
  | true => exact absurd hnonneg (rank_neg_finite hrep)
  | false =>
    have hmag : w * unit ≤ k * unit := Int.ofNat_le.1 hle
    exact ⟨w, hrep, (Nat.le_of_mul_le_mul_right hmag unit_pos).trans hkle, rfl⟩

theorem IsWhole.min (hx : x.IsWhole) (hy : y.IsWhole) : (min x y).IsWhole := by
  rcases min_choice hx.ne_nan hy.ne_nan with h | h
  · rw [h]
    exact hx
  · rw [h]
    exact hy

theorem toWord_mul_unit {k : Nat} (h : Representable (k * unit)) :
    (finite false (k * unit) h).toWord = min k maxWord := by
  rw [toWord_finite, if_neg Bool.false_ne_true, Nat.mul_div_cancel k unit_pos]

theorem ofInt_natCast (n : Nat) : ofInt (n : Int) = ofNat n := by
  have hsign : decide ((n : Int) < 0) = false := by simp
  rw [ofInt, hsign, Int.natAbs_natCast, ofNat]

theorem ofNat_maxWord : ofNat maxWord = ofMagnitude false (powTwo 64 * unit) := by decide +kernel

/-- A whole number survives the way to a word and back. -/
theorem IsWhole.ofInt_toWord (h : x.IsWhole) : ofInt (x.toWord : Int) = x := by
  obtain ⟨k, hk, hle, rfl⟩ := h
  rw [ofInt_natCast, toWord_mul_unit]
  rcases Nat.lt_or_ge maxWord k with hlt | hge
  · -- Only `2 ^ 64` is past the largest word, and that is where this word is rounded to.
    have htop : k = powTwo 64 := by
      have hmax : maxWord + 1 = powTwo 64 := Nat.sub_add_cancel (powTwo_pos 64)
      have hge : powTwo 64 ≤ k := by
        rw [← hmax]
        exact hlt
      exact le_antisymm hle hge
    subst htop
    rw [Nat.min_eq_right hlt.le, ofNat_maxWord]
    exact ofMagnitude_eq_finite hk false
  · rw [Nat.min_eq_left hge]
    exact nearest_of_representable hk false

end Binary64

namespace Bitrate

variable {r least most : Bitrate}

theorem bps_ofNat (n : Nat) : (ofNat n).bps = Binary64.ofNat n := by rw [ofNat]

theorem isWhole_ofNat {n : Nat} (h : n < powTwo 64) : (ofNat n).bps.IsWhole := by
  rw [bps_ofNat]
  exact Binary64.isWhole_ofNat h

theorem bps_min (r s : Bitrate) : (min r s).bps = min r.bps s.bps := rfl

theorem min_choice {s : Bitrate} (hr : r.bps ≠ .nan) (hs : s.bps ≠ .nan) :
    min r s = r ∨ min r s = s :=
  (Binary64.min_choice hr hs).imp (congrArg Bitrate.mk) (congrArg Bitrate.mk)

theorem le_of_rank {s : Bitrate} (hr : r.bps ≠ .nan) (hs : s.bps ≠ .nan)
    (h : r.bps.rank ≤ s.bps.rank) : r ≤ s :=
  (Binary64.le_iff_place_le hr hs).2 (Binary64.place_le_of_rank_le h)

theorem whole_eq_toWord (h : r.bps.IsWhole) : r.whole = r.bps.toWord := by
  have hmax : max r.bps 0 = r.bps := by
    refine Binary64.max_eq_left_of_rank h.ne_nan
      (by rw [Binary64.zero_eq]; simp [Binary64.signedZero]) ?_
    rw [Binary64.zero_eq]
    exact h.rank_nonneg
  rw [whole, if_pos h.isValid, hmax, h.round]

/-- A whole rate survives the way to a word and back. -/
theorem ofInt_whole (h : r.bps.IsWhole) : (⟨.ofInt (r.whole : Int)⟩ : Bitrate) = r := by
  rw [whole_eq_toWord h, h.ofInt_toWord]

theorem round_eq_self (h : r.bps.IsInteger) : r.round = r := by
  rw [round, h.round]

/-- A rate between the limits is left as it is. -/
theorem clamp_eq_self (hr : r.isValid = true) (hleast : least.bps ≠ .nan) (hmost : most.bps ≠ .nan)
    (hle : (min least most).bps.rank ≤ r.bps.rank) (hge : r.bps.rank ≤ most.bps.rank) :
    r.clamp least most = r := by
  have hne : r.bps ≠ .nan := Binary64.ne_nan_of_isFinite hr
  have hmin : (min least most).bps ≠ .nan := Binary64.min_ne_nan hleast
  have hmax : max r (min least most) = r :=
    congrArg Bitrate.mk (Binary64.max_eq_left_of_rank hne hmin hle)
  have hboth : min r most = r :=
    congrArg Bitrate.mk (Binary64.min_eq_left_of_rank hne hmost hge)
  simp only [clamp]
  rw [if_pos hr, hmax, hboth]

/-- A rate between limits is in the middle of the three, and an invalid one is at the lower limit. -/
theorem rank_clamp (r : Bitrate) (hleast : least.bps ≠ .nan) (hmost : most.bps ≠ .nan) :
    (r.clamp least most).bps ≠ .nan ∧
      (r.clamp least most).bps.rank =
        if r.isValid then min (max r.bps.rank (min least most).bps.rank) most.bps.rank
        else (min least most).bps.rank := by
  have hmin : (min least most).bps ≠ .nan := Binary64.min_ne_nan hleast
  unfold clamp
  dsimp only
  split
  · next hvalid =>
    have hr : r.bps ≠ .nan := Binary64.ne_nan_of_isFinite hvalid
    have hmax : (max r.bps (min least most).bps) ≠ .nan := Binary64.max_ne_nan hr
    refine ⟨Binary64.min_ne_nan hmax, ?_⟩
    rw [← Binary64.rank_max hr hmin]
    exact Binary64.rank_min hmax hmost
  · exact ⟨hmin, rfl⟩

/-- Whatever a rate is, it gets between the limits. -/
theorem rank_clamp_between (r : Bitrate) (hleast : least.bps ≠ .nan) (hmost : most.bps ≠ .nan) :
    (r.clamp least most).bps ≠ .nan ∧
      (min least most).bps.rank ≤ (r.clamp least most).bps.rank ∧
      (r.clamp least most).bps.rank ≤ most.bps.rank := by
  obtain ⟨hnan, hrank⟩ := rank_clamp r hleast hmost
  have hle : (min least most).bps.rank ≤ most.bps.rank :=
    (Binary64.rank_min hleast hmost).trans_le (min_le_right _ _)
  refine ⟨hnan, ?_⟩
  rw [hrank]
  split
  · exact ⟨le_min (le_max_right _ _) hle, min_le_right _ _⟩
  · exact ⟨le_rfl, hle⟩

/-- A rate that was rounded and held between integers is an integer. -/
theorem isInteger_clamp_round (r : Bitrate) (hleast : least.bps.IsInteger)
    (hmost : most.bps.IsInteger) : (r.round.clamp least most).bps.IsInteger := by
  have hmin : (min least most).bps.IsInteger := hleast.min hmost
  -- What is not finite becomes the lower limit, and only what is finite was rounded to an integer.
  unfold clamp
  dsimp only
  split
  · next hvalid => exact ((Binary64.isInteger_round_of_isFinite hvalid).max hmin).min hmost
  · exact hmin

end Bitrate

end Simulcast
