import Simulcast.Decimal.Shortest
import Simulcast.Proofs.Binary64.Whole

/-!
# What the shortest decimal is like

The decimal that a number is written with lies between the ends of the interval around the number, so
it is hardly larger than the number itself, and it is never zero. It also has no more than seventeen
digits, since the grids that are searched are not finer than that. Taking zeros from its end changes
none of this.

## Main definitions

* `Binary64.Fits` — a positive decimal of few digits that reads back as a magnitude

## Main results

* `Binary64.fits_of_onGrid?` — a decimal that is found on a grid fits
* `Binary64.shortest_spec` — the shortest decimal fits, unless none is found
-/

namespace Simulcast

theorem powTen_add (m n : Nat) : powTen (m + n) = powTen m * powTen n := Nat.pow_add 10 m n

theorem powTen_le {m n : Nat} (h : m ≤ n) : powTen m ≤ powTen n :=
  Nat.pow_le_pow_right (by decide) h

theorem lt_powTen_length (n : Nat) : n < powTen (Nat.toDigits 10 n).length :=
  (Nat.length_toDigits_le_iff (by decide) (List.length_pos_iff.2 Nat.toDigits_ne_nil)).1 le_rfl

namespace Binary64

variable {m c : Nat} {e : Int} {d : Decimal} {halfway : Halfway}

/-- A positive decimal with no more than seventeen digits, or the next power of ten, that is not above
the interval around a magnitude. -/
structure Fits (m : Nat) (d : Decimal) : Prop where
  pos : 0 < d.coefficient
  le_powTen : d.coefficient ≤ powTen 17
  le_upperEnd : 4 * unit * d.coefficient * powTen d.exponent.toNat ≤
    upperEnd m * powTen (-d.exponent).toNat

/-! ### What reads back -/

theorem le_upperEnd_of_readsBack (h : readsBack m c e = true) :
    4 * unit * c * powTen e.toNat ≤ upperEnd m * powTen (-e).toNat := by
  unfold readsBack at h
  dsimp only at h
  split at h
  · exact of_decide_eq_true (Bool.and_eq_true_iff.1 h).2
  · exact (of_decide_eq_true (Bool.and_eq_true_iff.1 h).2).le

theorem spacing_le (hm : m ≠ 0) : spacing m ≤ m :=
  (powTwo_le (Nat.sub_le _ _)).trans (Nat.log2_self_le hm)

theorem lowerEnd_pos (hm : m ≠ 0) : 0 < lowerEnd m := by
  have hle := spacing_le hm
  unfold lowerEnd
  split <;> omega

/-- Zero reads back as nothing but zero. -/
theorem coefficient_pos_of_readsBack (hm : m ≠ 0) (h : readsBack m c e = true) : 0 < c := by
  by_contra hc
  obtain rfl : c = 0 := by omega
  have hlow : 0 < lowerEnd m * powTen (-e).toNat := Nat.mul_pos (lowerEnd_pos hm) (powTen_pos _)
  have hpoint : 4 * unit * 0 * powTen e.toNat = 0 := by ring
  unfold readsBack at h
  dsimp only at h
  rw [hpoint] at h
  split at h
  · exact absurd (of_decide_eq_true (Bool.and_eq_true_iff.1 h).1) (Nat.not_le.2 hlow)
  · exact absurd (of_decide_eq_true (Bool.and_eq_true_iff.1 h).1) (Nat.not_lt_zero _)

/-! ### What is found on a grid -/

theorem nearerOnGrid_eq_or (halfway : Halfway) (m : Nat) (e : Int) :
    nearerOnGrid halfway m e = m * powTen (-e).toNat / (unit * powTen e.toNat) ∨
      nearerOnGrid halfway m e = m * powTen (-e).toNat / (unit * powTen e.toNat) + 1 := by
  unfold nearerOnGrid
  dsimp only
  split
  · exact Or.inl rfl
  split
  · exact Or.inr rfl
  cases halfway with
  | toEven =>
    dsimp only
    split
    · exact Or.inl rfl
    · exact Or.inr rfl
  | up => exact Or.inr rfl

/-- A decimal found on a grid is one of the two neighbours there, and it reads back. -/
theorem onGrid?_spec (h : onGrid? halfway m e = some d) :
    d.exponent = e ∧ readsBack m d.coefficient e = true ∧
      d.coefficient ≤ m * powTen (-e).toNat / (unit * powTen e.toNat) + 1 := by
  have hnearer := nearerOnGrid_eq_or halfway m e
  -- Only the quotient matters from here on, not how large its parts are.
  unfold onGrid? at h
  dsimp only at h
  generalize m * powTen (-e).toNat / (unit * powTen e.toNat) = below at h hnearer ⊢
  generalize nearerOnGrid halfway m e = nearer at h hnearer
  split at h
  · next hbelow habove =>
    obtain rfl := Option.some.inj h
    rcases hnearer with rfl | rfl
    · exact ⟨rfl, hbelow, Nat.le_succ _⟩
    · exact ⟨rfl, habove, Nat.le_refl _⟩
  · next hbelow _ =>
    obtain rfl := Option.some.inj h
    exact ⟨rfl, hbelow, Nat.le_succ _⟩
  · next _ habove =>
    obtain rfl := Option.some.inj h
    exact ⟨rfl, habove, Nat.le_refl _⟩
  · exact absurd h (by simp)

/-- The finest grid has seventeen digits in front of the first place that is left out. -/
theorem below_lt_powTen (m : Nat) {n : Nat} (he : e = decimalPlaces m - (n + 1 : Int)) :
    m * powTen (-e).toNat / (unit * powTen e.toNat) < powTen (n + 1) := by
  have hlength := lt_powTen_length (m * powTen 400 / unit)
  generalize hL : (Nat.toDigits 10 (m * powTen 400 / unit)).length = L at hlength
  rw [Nat.div_lt_iff_lt_mul unit_pos] at hlength
  rw [decimalPlaces, hL] at he
  rw [Nat.div_lt_iff_lt_mul (Nat.mul_pos unit_pos (powTen_pos _))]
  -- Both sides are scaled until all powers of ten have natural exponents.
  have hleft : (-e).toNat + (L + e.toNat) = n + 1 + 400 + 2 * e.toNat := by omega
  refine Nat.lt_of_mul_lt_mul_right (a := powTen (L + e.toNat)) ?_
  calc m * powTen (-e).toNat * powTen (L + e.toNat)
      = m * powTen 400 * (powTen (n + 1) * powTen (2 * e.toNat)) := by
        rw [Nat.mul_assoc, ← powTen_add, hleft, Nat.mul_assoc, ← powTen_add, ← powTen_add]
        congr 2
        omega
    _ < powTen L * unit * (powTen (n + 1) * powTen (2 * e.toNat)) :=
        Nat.mul_lt_mul_of_pos_right hlength (Nat.mul_pos (powTen_pos _) (powTen_pos _))
    _ = powTen (n + 1) * (unit * powTen e.toNat) * powTen (L + e.toNat) := by
        rw [two_mul, powTen_add e.toNat, powTen_add L]
        ring

theorem fits_of_onGrid? (hm : m ≠ 0) {n : Nat} (hn : n < 17)
    (h : onGrid? halfway m (decimalPlaces m - (n + 1 : Int)) = some d) : Fits m d := by
  obtain ⟨hexponent, hreads, hle⟩ := onGrid?_spec h
  have hbelow := below_lt_powTen m (n := n) rfl
  have hpow : powTen (n + 1) ≤ powTen 17 := powTen_le hn
  refine ⟨coefficient_pos_of_readsBack hm hreads, by omega, ?_⟩
  rw [hexponent]
  exact le_upperEnd_of_readsBack hreads

/-! ### Zeros at the end -/

theorem Fits.trimLoop (h : Fits m d) (fuel : Nat) : Fits m (Decimal.trimLoop fuel d) := by
  induction fuel generalizing d with
  | zero => exact h
  | succ fuel ih =>
    rw [Decimal.trimLoop]
    split
    · next hzero =>
      obtain ⟨hmod, hne⟩ := hzero
      refine ih ⟨Nat.div_pos (by omega) (by decide), (Nat.div_le_self _ _).trans h.le_powTen, ?_⟩
      have hten : d.coefficient = d.coefficient / 10 * 10 := by omega
      have hle := h.le_upperEnd
      rw [hten] at hle
      generalize d.coefficient / 10 = c at hle
      dsimp only
      -- The ten goes into the exponent, or takes a ten from the other side.
      rcases Int.lt_or_le d.exponent 0 with hneg | hpos
      · have hzero : (d.exponent + 1).toNat = 0 ∧ d.exponent.toNat = 0 := by omega
        have hsucc : (-d.exponent).toNat = (-(d.exponent + 1)).toNat + 1 := by omega
        rw [hzero.2, hsucc, powTen_succ] at hle
        rw [hzero.1]
        refine Nat.le_of_mul_le_mul_right (c := 10) ?_ (by decide)
        calc 4 * unit * c * powTen 0 * 10 = 4 * unit * (c * 10) * powTen 0 := by ring
          _ ≤ upperEnd m * (powTen (-(d.exponent + 1)).toNat * 10) := hle
          _ = upperEnd m * powTen (-(d.exponent + 1)).toNat * 10 := by ring
      · have hzero : (-(d.exponent + 1)).toNat = (-d.exponent).toNat := by omega
        have hsucc : (d.exponent + 1).toNat = d.exponent.toNat + 1 := by omega
        rw [hzero, hsucc, powTen_succ]
        calc 4 * unit * c * (powTen d.exponent.toNat * 10) =
            4 * unit * (c * 10) * powTen d.exponent.toNat := by ring
          _ ≤ upperEnd m * powTen (-d.exponent).toNat := hle
    · exact h

/-- The shortest decimal fits, unless none is found. -/
theorem shortest_spec (halfway : Halfway) (m : Nat) :
    shortest halfway m = ⟨0, 0⟩ ∨ (m ≠ 0 ∧ Fits m (shortest halfway m)) := by
  unfold shortest
  split
  · exact Or.inl rfl
  next hm =>
  dsimp only
  cases hfound : ((List.range 17).map fun (n : Nat) => decimalPlaces m - (n + 1 : Int)).findSome?
      (onGrid? halfway m) with
  | none => exact Or.inl (by decide)
  | some d =>
    obtain ⟨e, he, hd⟩ := List.exists_of_findSome?_eq_some hfound
    obtain ⟨n, hn, rfl⟩ := List.mem_map.1 he
    exact Or.inr ⟨hm, (fits_of_onGrid? hm (List.mem_range.1 hn) hd).trimLoop _⟩

end Binary64

end Simulcast
