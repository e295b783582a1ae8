import Mathlib.Tactic.Linarith
import Mathlib.Tactic.Ring
import Simulcast.Bitrate
import Simulcast.Proofs.Binary64.Order

/-!
# Whole numbers up to the largest word

Bitrates leave the program as words of 64 bits and come back as numbers of the format. Not every word
is a number: beyond `2 ^ 53` only every second one is, and the largest words round to `2 ^ 64`, which
is itself no word any more. A number that is the image of a word nevertheless survives the way to a
word and back, because the two ends meet: `2 ^ 64` becomes the largest word, and the largest word
becomes `2 ^ 64`.

## Main definitions

* `Binary64.IsInteger` — a finite number without a fraction
* `Binary64.IsWhole` — a whole number from zero to `2 ^ 64`

## Main results

* `Binary64.nearest_eq_finite` — the nearest number is finite unless it reaches the limit
* `Binary64.isWhole_ofNat` — a word becomes a whole number
-/

namespace Simulcast

theorem powTwo_add (m n : Nat) : powTwo (m + n) = powTwo m * powTwo n := Nat.pow_add 2 m n

theorem powTwo_dvd {m n : Nat} (h : m ≤ n) : powTwo m ∣ powTwo n := Nat.pow_dvd_pow 2 h

theorem powTwo_le {m n : Nat} (h : m ≤ n) : powTwo m ≤ powTwo n :=
  Nat.pow_le_pow_right (by decide) h

theorem powTwo_lt {m n : Nat} (h : m < n) : powTwo m < powTwo n :=
  Nat.pow_lt_pow_right (by decide) h

theorem log2_lt_iff {n k : Nat} (h : n ≠ 0) : n.log2 < k ↔ n < powTwo k := Nat.log2_lt h

theorem lt_powTwo_log2 (n : Nat) : n < powTwo (n.log2 + 1) := Nat.lt_log2_self

/-- Rounding does not pass a multiple of the divisor. -/
theorem roundDiv_le {num den k : Nat} (hden : 0 < den) (h : num ≤ k * den) :
    roundDiv num den ≤ k := by
  have hbelow : num / den ≤ k := by
    rw [← Nat.mul_div_cancel k hden]
    exact Nat.div_le_div_right h
  rcases Nat.lt_or_eq_of_le hbelow with hlt | heq
  · unfold roundDiv
    dsimp only
    split <;> omega
  · -- The quotient comes out even, so there is nothing to round.
    have hnum : num = den * k := by
      have hle := Nat.div_mul_le_self num den
      rw [heq] at hle
      rw [Nat.mul_comm]
      exact le_antisymm h hle
    rw [hnum, roundDiv_mul_left hden]

theorem roundDiv_le_succ (num den : Nat) : roundDiv num den ≤ num / den + 1 := by
  unfold roundDiv
  dsimp only
  split <;> omega

namespace Binary64

variable {x y : Binary64} {s : Bool} {m n : Nat}

/-! ### Representable magnitudes -/

/-- Up to 53 bits, anywhere below the limit. -/
theorem representable_mul_powTwo {q j : Nat} (hq : q ≤ powTwo 53) (hlt : q * powTwo j < limit) :
    Representable (q * powTwo j) := by
  refine ⟨hlt, ?_⟩
  unfold spacing
  -- The spacing is a power of two, and it is at most the one that divides the magnitude.
  rcases Nat.eq_zero_or_pos q with rfl | hpos
  · rw [Nat.zero_mul]
    exact Nat.dvd_zero _
  have hne : q * powTwo j ≠ 0 := (Nat.mul_pos hpos (powTwo_pos j)).ne'
  rcases Nat.lt_or_eq_of_le hq with hsmall | rfl
  · have hlog : (q * powTwo j).log2 < 53 + j := by
      rw [log2_lt_iff hne, powTwo_add]
      exact Nat.mul_lt_mul_of_pos_right hsmall (powTwo_pos j)
    exact (powTwo_dvd (by omega)).trans (Nat.dvd_mul_left _ q)
  · rw [← powTwo_add] at hne ⊢
    have hlog : (powTwo (53 + j)).log2 < 53 + j + 1 :=
      (log2_lt_iff hne).2 (powTwo_lt (Nat.lt_succ_self _))
    exact powTwo_dvd (by omega)

theorem spacing_pos (m : Nat) : 0 < spacing m := powTwo_pos _

/-- The significand of a rounded quotient has no more than 53 bits, or is the next power of two. -/
theorem roundDiv_spacing_le (num den : Nat) :
    roundDiv num (den * spacing (num / den)) ≤ powTwo 53 := by
  have hlt : num / den < powTwo 53 * spacing (num / den) := by
    unfold spacing
    rw [← powTwo_add]
    refine lt_of_lt_of_le (lt_powTwo_log2 _) (powTwo_le ?_)
    omega
  refine (roundDiv_le_succ _ _).trans ?_
  rw [← Nat.div_div_eq_div_mul]
  exact (Nat.div_lt_iff_lt_mul (spacing_pos _)).2 hlt

/-- The nearest number is finite, unless it reaches the limit. -/
theorem nearest_eq_finite {num den : Nat}
    (hm : m = roundDiv num (den * spacing (num / den)) * spacing (num / den)) (hlt : m < limit) :
    ∃ h, nearest s num den = finite s m h := by
  have hrep : Representable m := by
    rw [hm] at hlt ⊢
    exact representable_mul_powTwo (roundDiv_spacing_le num den) hlt
  refine ⟨hrep, ?_⟩
  simp only [nearest, ← hm]
  exact ofMagnitude_eq_finite hrep s

/-! ### Whole numbers -/

/-- A finite number without a fraction. The sign may be any, also on zero. -/
def IsInteger (x : Binary64) : Prop :=
  ∃ s k h, x = finite s (k * unit) h

/-- A whole number from zero to `2 ^ 64`. -/
def IsWhole (x : Binary64) : Prop :=
  ∃ k h, k ≤ powTwo 64 ∧ x = finite false (k * unit) h

/-- A number in the place of a whole one, so that negative zero counts, too. -/
def IsCount (x : Binary64) : Prop := x.IsWhole ∨ x = signedZero true

theorem powTwo_mul_unit (k : Nat) : powTwo k * unit = powTwo (k + 1074) := (powTwo_add k 1074).symm

theorem limit_eq : limit = powTwo 1024 * unit := by rw [powTwo_mul_unit, limit]

theorem mul_unit_lt_limit {k : Nat} (h : k ≤ powTwo 64) : k * unit < limit := by
  rw [limit_eq]
  exact Nat.mul_lt_mul_of_pos_right (lt_of_le_of_lt h (powTwo_lt (by decide))) unit_pos

/-- A word becomes a whole number, and it stays what it is if it has no more than 53 bits. -/
theorem isWhole_ofNat (hn : n < powTwo 64) : (ofNat n).IsWhole := by
  -- A word counts units, so that its magnitude has no more than 64 + 1074 bits.
  have hlog : (n * unit).log2 < 1138 := by
    rcases Nat.eq_zero_or_pos n with rfl | hpos
    · rw [Nat.zero_mul]
      exact Nat.lt_of_le_of_lt (Nat.log2_le_self 0) (by decide)
    · have hne : n * unit ≠ 0 := (Nat.mul_pos hpos unit_pos).ne'
      rw [log2_lt_iff hne, ← powTwo_mul_unit 64]
      exact Nat.mul_lt_mul_of_pos_right hn unit_pos
  have hone : spacing (n * unit / 1) = powTwo ((n * unit).log2 - 52) := by rw [Nat.div_one, spacing]
  -- Either the step of the rounding divides one, or one divides the step.
  rcases Nat.le_total ((n * unit).log2 - 52) 1074 with hfine | hcoarse
  · have hdvd : powTwo ((n * unit).log2 - 52) ∣ n * unit :=
      (powTwo_dvd hfine).trans (Nat.dvd_mul_left _ n)
    have hrep : Representable (n * unit) := ⟨mul_unit_lt_limit hn.le, hdvd⟩
    exact ⟨n, hrep, hn.le, nearest_of_representable hrep false⟩
  · obtain ⟨c, hc⟩ : unit ∣ powTwo ((n * unit).log2 - 52) := powTwo_dvd hcoarse
    have hround : roundDiv (n * unit) (1 * powTwo ((n * unit).log2 - 52)) ≤
        powTwo (1138 - ((n * unit).log2 - 52)) := by
      refine roundDiv_le (Nat.mul_pos Nat.one_pos (powTwo_pos _)) ?_
      rw [Nat.one_mul, ← powTwo_add, Nat.sub_add_cancel (by omega)]
      exact (lt_powTwo_log2 _).le.trans (powTwo_le hlog)
    have hm : roundDiv (n * unit) (1 * powTwo ((n * unit).log2 - 52)) *
        powTwo ((n * unit).log2 - 52) =
          roundDiv (n * unit) (1 * powTwo ((n * unit).log2 - 52)) * c * unit := by
      conv => lhs; arg 2; rw [hc]
      ring
    have hbound : roundDiv (n * unit) (1 * powTwo ((n * unit).log2 - 52)) * c ≤ powTwo 64 := by
      refine Nat.le_of_mul_le_mul_right ?_ unit_pos
      rw [← hm]
      refine (Nat.mul_le_mul_right _ hround).trans ?_
      rw [← powTwo_add, Nat.sub_add_cancel (by omega)]
      rw [powTwo_mul_unit]
    rw [← hone] at hm hbound
    obtain ⟨h, hnearest⟩ := nearest_eq_finite (s := false) hm.symm (mul_unit_lt_limit hbound)
    exact ⟨_, h, hbound, hnearest⟩

theorem IsWhole.isInteger (h : x.IsWhole) : x.IsInteger := by
  obtain ⟨k, hk, -, rfl⟩ := h
  exact ⟨false, k, hk, rfl⟩

theorem IsCount.isInteger (h : x.IsCount) : x.IsInteger := by
  rcases h with hwhole | rfl
  · exact hwhole.isInteger
  · refine ⟨true, 0, (Nat.zero_mul unit).symm ▸ representable_zero, ?_⟩
    simp only [signedZero, Nat.zero_mul]

theorem IsInteger.isFinite (h : x.IsInteger) : x.isFinite = true := by
  obtain ⟨s, k, hk, rfl⟩ := h
  rfl

theorem IsInteger.ne_nan (h : x.IsInteger) : x ≠ .nan := ne_nan_of_isFinite h.isFinite

theorem IsWhole.ne_nan (h : x.IsWhole) : x ≠ .nan := h.isInteger.ne_nan

theorem wholeMagnitude_mul_unit (k : Nat) : wholeMagnitude (k * unit) = k := by
  unfold wholeMagnitude
  refine Nat.div_eq_of_lt_le ?_ ?_
  · linarith [unit_pos]
  · linarith [unit_pos]

theorem IsInteger.round (h : x.IsInteger) : x.round = x := by
  obtain ⟨s, k, hk, rfl⟩ := h
  rw [Binary64.round, wholeMagnitude_mul_unit]
  exact ofMagnitude_eq_finite hk s

theorem IsWhole.round (h : x.IsWhole) : x.round = x := h.isInteger.round

end Binary64

end Simulcast
