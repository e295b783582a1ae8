import Simulcast.Proofs.Binary64.Whole

/-!
# Rounding keeps the order

A larger quotient is never rounded to a smaller number. Within one range of significands that is
plain. Between two of them there is a power of two, which is not rounded at all, so that what lies
below it stays below and what lies above it stays above.

So whether an operation leaves the format can be decided at the largest of its operands.

## Main definitions

* `Binary64.roundedMagnitude` — the magnitude that a quotient is rounded to

## Main results

* `Binary64.roundedMagnitude_mono` — a larger quotient is not rounded to a smaller magnitude
* `Binary64.roundedMagnitude_mul_le` — how much rounding adds at most
* `Binary64.roundedMagnitude_mul_fraction_le` — a product with a fraction is no more than that
* `Binary64.isFinite_mul_of_le` — a product with a smaller factor stays finite
* `Binary64.round_finite_eq` — what is finite stays finite when it is rounded to an integer
* `Binary64.round_mul_eq` — a product that is rounded to an integer
-/

namespace Simulcast

theorem log2_mono {m n : Nat} (h : m ≤ n) : m.log2 ≤ n.log2 := by
  rcases Nat.eq_zero_or_pos m with rfl | hpos
  · exact Nat.zero_le _
  · rw [Nat.le_log2 (by omega)]
    exact (Nat.log2_self_le hpos.ne').trans h

theorem roundDiv_mono {m n den : Nat} (h : m ≤ n) : roundDiv m den ≤ roundDiv n den := by
  have hle : m / den ≤ n / den := Nat.div_le_div_right h
  rcases Nat.lt_or_eq_of_le hle with hlt | heq
  · have hceil := roundDiv_le_succ m den
    have hfloor : n / den ≤ roundDiv n den := by
      unfold roundDiv
      dsimp only
      split <;> omega
    omega
  · -- With the same quotient it is the larger remainder that decides.
    have hm := Nat.div_add_mod m den
    have hn := Nat.div_add_mod n den
    rw [heq] at hm
    have hmod : m % den ≤ n % den := by omega
    unfold roundDiv
    dsimp only
    rw [heq]
    split <;> split <;> omega

/-- Rounding adds no more than a half. -/
theorem two_mul_roundDiv_le (num den : Nat) :
    2 * (roundDiv num den * den) ≤ 2 * num + den := by
  have hdivide := Nat.div_add_mod' num den
  unfold roundDiv
  dsimp only
  split
  · omega
  · next h =>
    have hhalf : den ≤ 2 * (num % den) := Nat.le_of_not_lt fun hlt => h (Or.inl hlt)
    rw [Nat.add_mul, Nat.one_mul]
    omega

theorem le_roundDiv {num den k : Nat} (hden : 0 < den) (h : k * den ≤ num) :
    k ≤ roundDiv num den := by
  have hk : roundDiv (den * k) den = k := roundDiv_mul_left hden
  rw [← hk]
  exact roundDiv_mono (by rwa [Nat.mul_comm])

namespace Binary64

variable {m n num den : Nat}

/-- The magnitude that a quotient is rounded to, whether or not the format has room for it. -/
def roundedMagnitude (num den : Nat) : Nat :=
  roundDiv num (den * spacing (num / den)) * spacing (num / den)

theorem nearest_eq (s : Bool) (num den : Nat) :
    nearest s num den = ofMagnitude s (roundedMagnitude num den) := rfl

theorem representable_roundedMagnitude (h : roundedMagnitude num den < limit) :
    Representable (roundedMagnitude num den) :=
  representable_mul_powTwo (roundDiv_spacing_le num den) h

theorem spacing_dvd_spacing (h : m ≤ n) : spacing m ∣ spacing n := by
  have hlog : m.log2 ≤ n.log2 := log2_mono h
  exact powTwo_dvd (Nat.sub_le_sub_right hlog 52)

/-- Rounding does not pass a magnitude with no more than 53 significant bits. -/
theorem roundedMagnitude_le (hm : spacing m ∣ m) (hden : 0 < den) (h : num ≤ m * den) :
    roundedMagnitude num den ≤ m := by
  have hquotient : num / den ≤ m := Nat.div_le_of_le_mul (by rwa [Nat.mul_comm])
  obtain ⟨k, hk⟩ := (spacing_dvd_spacing hquotient).trans hm
  have hround : roundDiv num (den * spacing (num / den)) ≤ k := by
    refine roundDiv_le (Nat.mul_pos hden (spacing_pos _)) (h.trans (le_of_eq ?_))
    conv_lhs => rw [hk]
    ring
  calc roundedMagnitude num den ≤ k * spacing (num / den) := Nat.mul_le_mul_right _ hround
    _ = m := by rw [Nat.mul_comm, ← hk]

theorem roundedMagnitude_mono (hden : 0 < den) (h : m ≤ n) :
    roundedMagnitude m den ≤ roundedMagnitude n den := by
  have hquotient : m / den ≤ n / den := Nat.div_le_div_right h
  by_cases hspacing : spacing (m / den) = spacing (n / den)
  · unfold roundedMagnitude
    rw [hspacing]
    exact Nat.mul_le_mul_right _ (roundDiv_mono h)
  -- The power of two at the beginning of the upper range lies between the two.
  have hlog : (m / den).log2 < (n / den).log2 := by
    refine lt_of_le_of_ne (log2_mono hquotient) fun heq => hspacing ?_
    rw [spacing, spacing, heq]
  have hne : n / den ≠ 0 := by
    intro hzero
    rw [hzero] at hlog
    exact Nat.not_lt_zero _ hlog
  have hbound : powTwo (n / den).log2 ≤ n / den := Nat.log2_self_le hne
  have hdvd : spacing (n / den) ∣ powTwo (n / den).log2 := powTwo_dvd (Nat.sub_le _ _)
  have hself : spacing (powTwo (n / den).log2) = spacing (n / den) := by
    rw [spacing, spacing]
    exact congrArg (fun k => powTwo (k - 52)) Nat.log2_two_pow
  calc roundedMagnitude m den ≤ powTwo (n / den).log2 := by
        refine roundedMagnitude_le (hself ▸ hdvd) hden (le_of_lt ?_)
        rw [← Nat.div_lt_iff_lt_mul hden]
        exact lt_of_lt_of_le (lt_powTwo_log2 _) (powTwo_le hlog)
    _ ≤ roundedMagnitude n den := by
        obtain ⟨k, hk⟩ := hdvd
        unfold roundedMagnitude
        rw [hk, Nat.mul_comm]
        refine Nat.mul_le_mul_right _ (le_roundDiv (Nat.mul_pos hden (spacing_pos _)) ?_)
        calc k * (den * spacing (n / den)) = powTwo (n / den).log2 * den := by rw [hk]; ring
          _ ≤ n := (Nat.mul_le_mul_right _ hbound).trans (Nat.div_mul_le_self n den)

/-- Rounding to 53 significant bits adds no more than a half of the last one. -/
theorem roundedMagnitude_mul_le (h : powTwo 52 ≤ num / den) :
    roundedMagnitude num den * den * powTwo 53 ≤ num * (powTwo 53 + 1) := by
  have hhalf := two_mul_roundDiv_le num (den * spacing (num / den))
  have hne : num / den ≠ 0 := (lt_of_lt_of_le (powTwo_pos 52) h).ne'
  have hlog : 52 ≤ (num / den).log2 := (Nat.le_log2 hne).2 h
  have hbits : spacing (num / den) * powTwo 52 ≤ num / den := by
    rw [spacing, ← powTwo_add, Nat.sub_add_cancel hlog]
    exact Nat.log2_self_le hne
  have hlast : den * spacing (num / den) * powTwo 52 ≤ num :=
    calc den * spacing (num / den) * powTwo 52 = den * (spacing (num / den) * powTwo 52) := by ring
      _ ≤ den * (num / den) := Nat.mul_le_mul_left den hbits
      _ ≤ num := Nat.mul_div_le num den
  have htwo : powTwo 53 = powTwo 52 * 2 := powTwo_succ 52
  unfold roundedMagnitude
  generalize roundDiv num (den * spacing (num / den)) = k at hhalf ⊢
  calc k * spacing (num / den) * den * powTwo 53
      = 2 * (k * (den * spacing (num / den))) * powTwo 52 := by rw [htwo]; ring
    _ ≤ (2 * num + den * spacing (num / den)) * powTwo 52 := Nat.mul_le_mul_right _ hhalf
    _ = num * powTwo 53 + den * spacing (num / den) * powTwo 52 := by rw [htwo]; ring
    _ ≤ num * powTwo 53 + num := Nat.add_le_add_left hlast _
    _ = num * (powTwo 53 + 1) := by ring

/-- A product with a fraction, rounded, is no more than the fraction of the other factor, if the
fraction has room for the rounding. -/
theorem roundedMagnitude_mul_fraction_le {p q : Nat} (hbits : powTwo 52 ≤ m * n / unit)
    (h : q * (n * (powTwo 53 + 1)) ≤ p * (unit * powTwo 53)) :
    q * roundedMagnitude (m * n) unit ≤ p * m := by
  have hround := roundedMagnitude_mul_le hbits
  generalize roundedMagnitude (m * n) unit = r at hround ⊢
  -- The bounds on the rounding and on the fraction have a factor in common.
  refine Nat.le_of_mul_le_mul_right ?_ (Nat.mul_pos unit_pos (powTwo_pos 53))
  calc q * r * (unit * powTwo 53) = q * (r * unit * powTwo 53) := by ring
    _ ≤ q * (m * n * (powTwo 53 + 1)) := Nat.mul_le_mul_left q hround
    _ = m * (q * (n * (powTwo 53 + 1))) := by ring
    _ ≤ m * (p * (unit * powTwo 53)) := Nat.mul_le_mul_left m h
    _ = p * m * (unit * powTwo 53) := by ring

theorem isFinite_ofMagnitude_iff {s : Bool} :
    (ofMagnitude s m).isFinite = true ↔ Representable m := by
  unfold ofMagnitude
  split
  · next h => exact iff_of_true rfl h
  · next h => exact iff_of_false Bool.false_ne_true h

theorem isFinite_nearest_iff {s : Bool} :
    (nearest s num den).isFinite = true ↔ roundedMagnitude num den < limit := by
  constructor
  · intro h
    rw [nearest_eq, isFinite_ofMagnitude_iff] at h
    exact h.1
  · intro h
    rw [nearest_eq, isFinite_ofMagnitude_iff]
    exact representable_roundedMagnitude h

/-! ### Products -/

theorem finite_mul_finite (s t : Bool) (hm : Representable m) (hn : Representable n) :
    finite s m hm * finite t n hn = nearest (s ^^ t) (m * n) unit := by
  simp only [HMul.hMul, Mul.mul, Binary64.mul]

protected theorem mul_comm (x y : Binary64) : x * y = y * x := by
  rcases x with _ | s | ⟨s, m, hm⟩ <;> rcases y with _ | t | ⟨t, n, hn⟩ <;>
    simp only [HMul.hMul, Mul.mul, Binary64.mul]
  all_goals simp [Bool.xor_comm, Nat.mul_comm]

/-- Only finite numbers have a finite product. -/
theorem isFinite_of_isFinite_mul {x y : Binary64} (h : (x * y).isFinite = true) :
    x.isFinite = true ∧ y.isFinite = true := by
  rcases x with _ | s | ⟨s, m, hm⟩ <;> rcases y with _ | t | ⟨t, n, hn⟩ <;>
    simp only [HMul.hMul, Mul.mul, Binary64.mul] at h
  all_goals first
    | exact ⟨rfl, rfl⟩
    | cases h
    | (split at h <;> cases h)

/-- A product with a smaller factor stays finite. -/
theorem isFinite_mul_of_le {s t : Bool} {x : Binary64} {hm : Representable m}
    {hn : Representable n} (h : m ≤ n) (hfinite : (finite t n hn * x).isFinite = true) :
    (finite s m hm * x).isFinite = true := by
  obtain ⟨-, hx⟩ := isFinite_of_isFinite_mul hfinite
  rcases x with _ | u | ⟨u, k, hk⟩
  · cases hx
  · cases hx
  · rw [finite_mul_finite, isFinite_nearest_iff] at hfinite ⊢
    exact lt_of_le_of_lt (roundedMagnitude_mono unit_pos (Nat.mul_le_mul_right k h)) hfinite

/-! ### Integers -/

theorem wholeMagnitude_mono (h : m ≤ n) : wholeMagnitude m ≤ wholeMagnitude n := by
  unfold wholeMagnitude
  exact Nat.div_le_div_right (Nat.add_le_add_right (Nat.mul_le_mul_left 2 h) unit)

/-- Rounding to an integer adds no more than a half. -/
theorem two_mul_wholeMagnitude_le (m : Nat) : 2 * (wholeMagnitude m * unit) ≤ 2 * m + unit :=
  calc 2 * (wholeMagnitude m * unit) = wholeMagnitude m * (2 * unit) := by ring
    _ ≤ 2 * m + unit := Nat.div_mul_le_self (2 * m + unit) (2 * unit)

/-- From `2 ^ 53` on all numbers are integers, and below that all integers are numbers. -/
theorem representable_wholeMagnitude (h : Representable m) :
    Representable (wholeMagnitude m * unit) := by
  rcases Nat.lt_or_ge m (powTwo 53 * unit) with hsmall | hlarge
  · have hle : wholeMagnitude m ≤ powTwo 53 := by
      rw [← wholeMagnitude_mul_unit (powTwo 53)]
      exact wholeMagnitude_mono hsmall.le
    exact representable_mul_powTwo hle (mul_unit_lt_limit (hle.trans (powTwo_le (by decide))))
  · have hne : m ≠ 0 := (lt_of_lt_of_le (Nat.mul_pos (powTwo_pos 53) unit_pos) hlarge).ne'
    have hlog : 53 + 1074 ≤ m.log2 := by
      rw [powTwo_mul_unit, ge_iff_le, ← not_lt, ← log2_lt_iff hne, not_lt] at hlarge
      exact hlarge
    have hunit : unit ∣ spacing m := powTwo_dvd (by omega)
    obtain ⟨k, hk⟩ := hunit.trans h.2
    rw [Nat.mul_comm] at hk
    rw [hk, wholeMagnitude_mul_unit, ← hk]
    exact h

/-- What is finite stays finite when it is rounded to an integer. -/
theorem round_finite_eq (s : Bool) (h : Representable m) :
    (finite s m h).round = finite s (wholeMagnitude m * unit) (representable_wholeMagnitude h) :=
  ofMagnitude_eq_finite _ s

/-- A product that stays finite is rounded twice, to the format and to an integer. -/
theorem round_mul_eq {s t : Bool} (hm : Representable m) (hn : Representable n)
    (hlimit : roundedMagnitude (m * n) unit < limit) :
    (finite s m hm * finite t n hn).round =
      finite (s ^^ t) (wholeMagnitude (roundedMagnitude (m * n) unit) * unit)
        (representable_wholeMagnitude (representable_roundedMagnitude hlimit)) := by
  rw [finite_mul_finite, nearest_eq,
    ofMagnitude_eq_finite (representable_roundedMagnitude hlimit)]
  exact round_finite_eq _ _

end Binary64

end Simulcast
