import Simulcast.Proofs.Binary64.Monotone
import Simulcast.Proofs.Decimal.Shortest
import Simulcast.Proofs.Json.Numbers

/-!
# Every number survives being written and read

A finite number is written with its shortest digits, in one of four forms, and each of them is a text
that the reader of numbers takes apart without a fault. That the parts are then worth a number of the
format is not obvious, since they are scaled by a power of ten. Where the power is negative, it is: to
divide cannot leave the format. Otherwise the number is large, all of its digits are used, and the
decimal they make up is no larger than the largest number. The reader rounds it twice on the way, but
even so it does not get past the largest number.

The number that is read need not be the one that was written. It is off by a last place now and then.

## Main definitions

* `Binary64.maxMagnitude` — the largest finite magnitude
* `Json.significand`, `Json.decimalScale` — what the reader makes of the digits of a number

## Main results

* `Binary64.shortest_le_maxMagnitude` — no number is written as more than the largest one
* `Json.exists_written` — the text of a finite number, and that it is read
-/

namespace Simulcast

/-! ### The largest number -/

namespace Binary64

variable {m : Nat} {d : Decimal}

/-- The largest finite magnitude. -/
def maxMagnitude : Nat := (powTwo 53 - 1) * powTwo 2045

theorem representable_maxMagnitude : Representable maxMagnitude := by
  have hlimit : limit = powTwo 53 * powTwo 2045 := powTwo_add 53 2045
  refine representable_mul_powTwo (Nat.sub_le _ _) ?_
  rw [hlimit]
  exact Nat.mul_lt_mul_of_pos_right (Nat.sub_lt (powTwo_pos 53) Nat.one_pos) (powTwo_pos 2045)

/-- Where the last range of significands begins. -/
theorem powTwo_2097_eq : powTwo 2097 = powTwo 52 * powTwo 2045 := powTwo_add 52 2045

theorem powTwo_2045_dvd (hm : Representable m) (h : powTwo 2097 ≤ m) : powTwo 2045 ∣ m := by
  have hlog : 2097 ≤ m.log2 := by
    by_contra hlt
    rw [not_le, log2_lt_iff (lt_of_lt_of_le (powTwo_pos 2097) h).ne'] at hlt
    exact Nat.not_lt.2 h hlt
  exact (powTwo_dvd (by omega)).trans hm.2

theorem le_maxMagnitude (hm : Representable m) : m ≤ maxMagnitude := by
  rcases Nat.lt_or_ge m (powTwo 2097) with hsmall | hlarge
  · rw [powTwo_2097_eq] at hsmall
    exact hsmall.le.trans (Nat.mul_le_mul_right _ (by decide))
  · obtain ⟨k, hk⟩ := powTwo_2045_dvd hm hlarge
    have hlimit : limit = powTwo 2045 * powTwo 53 := powTwo_add 2045 53
    have hlt := hm.1
    rw [hlimit, hk] at hlt
    have hle := Nat.le_sub_one_of_lt (Nat.lt_of_mul_lt_mul_left hlt)
    rw [maxMagnitude, hk, Nat.mul_comm]
    exact Nat.mul_le_mul_right _ hle

/-- The interval around any smaller number ends below the largest one. -/
theorem upperEnd_le (hm : Representable m) (hlt : m < maxMagnitude) :
    upperEnd m ≤ 4 * maxMagnitude := by
  unfold upperEnd
  rcases Nat.lt_or_ge m (powTwo 2097) with hsmall | hlarge
  · have hspacing : spacing m ≤ powTwo 2045 := by
      rcases Nat.eq_zero_or_pos m with hzero | hpos
      · rw [hzero]
        exact powTwo_le (by decide)
      · have hlog := (log2_lt_iff hpos.ne').2 hsmall
        exact powTwo_le (by omega)
    have hmax : (4 * powTwo 52 + 2) * powTwo 2045 ≤ 4 * (powTwo 53 - 1) * powTwo 2045 :=
      Nat.mul_le_mul_right _ (by decide)
    rw [powTwo_2097_eq] at hsmall
    rw [maxMagnitude, ← Nat.mul_assoc]
    refine le_trans ?_ hmax
    rw [Nat.add_mul, Nat.mul_assoc]
    omega
  · -- In the last range, the next number is one step of the format away.
    obtain ⟨k, hk⟩ := powTwo_2045_dvd hm hlarge
    have hspacing : spacing m ≤ powTwo 2045 := by
      have hlog := (log2_lt_iff (lt_of_lt_of_le (powTwo_pos 2097) hlarge).ne').2 hm.1
      exact powTwo_le (by omega)
    rw [maxMagnitude, hk, Nat.mul_comm] at hlt
    have hnext : k + 1 ≤ powTwo 53 - 1 := Nat.lt_of_mul_lt_mul_right hlt
    have hstep : m + powTwo 2045 ≤ maxMagnitude := by
      rw [maxMagnitude, hk, Nat.mul_comm _ (powTwo 2045), ← Nat.mul_succ]
      exact Nat.mul_le_mul_left _ hnext
    omega

/-- The largest number in decimal: it is written as a little less than it is, it has these digits, and
from sixteen of them it is more than a half of the last bit away. -/
theorem maxMagnitude_digits :
    (shortest .toEven maxMagnitude).coefficient *
        (unit * powTen (shortest .toEven maxMagnitude).exponent.toNat) ≤ maxMagnitude ∧
    maxMagnitude / (unit * powTen 292) = 17976931348623157 ∧
    maxMagnitude / (unit * powTen 293) = 1797693134862315 ∧
    1797693134862315 * (unit * powTen 293) * (powTwo 53 + 1) ≤ maxMagnitude * powTwo 53 := by
  decide +kernel

/-- No number is written as more than the largest one. -/
theorem shortest_le_maxMagnitude (hm : Representable m) (hfits : Fits m (shortest .toEven m))
    (hpos : 0 ≤ (shortest .toEven m).exponent) :
    (shortest .toEven m).coefficient * (unit * powTen (shortest .toEven m).exponent.toNat) ≤
      maxMagnitude := by
  rcases Nat.lt_or_eq_of_le (le_maxMagnitude hm) with hlt | hmax
  · have hle := hfits.le_upperEnd
    have hzero : (-(shortest .toEven m).exponent).toNat = 0 := by omega
    have hone : powTen 0 = 1 := rfl
    rw [hzero, hone, Nat.mul_one] at hle
    have hfour : 4 * ((shortest .toEven m).coefficient *
        (unit * powTen (shortest .toEven m).exponent.toNat)) ≤ 4 * maxMagnitude :=
      calc 4 * ((shortest .toEven m).coefficient *
            (unit * powTen (shortest .toEven m).exponent.toNat))
          = 4 * unit * (shortest .toEven m).coefficient *
              powTen (shortest .toEven m).exponent.toNat := by ring
        _ ≤ 4 * maxMagnitude := hle.trans (upperEnd_le hm hlt)
    exact le_of_mul_le_mul_left hfour (by decide)
  · rw [hmax]
    exact maxMagnitude_digits.1

theorem ofNat_eq (n : Nat) : ofNat n = ofMagnitude false (roundedMagnitude (n * unit) 1) := rfl

/-- What is finite when a number is multiplied is finite when a smaller one is. -/
theorem isFinite_ofNat_mul_of_le {x : Binary64} {k n : Nat} (h : k ≤ n)
    (hfinite : (ofNat n * x).isFinite = true) : (ofNat k * x).isFinite = true := by
  have hn := (isFinite_of_isFinite_mul hfinite).1
  have hmono := roundedMagnitude_mono Nat.one_pos (Nat.mul_le_mul_right unit h)
  have hk : (ofNat k).isFinite = true := by
    rw [ofNat, isFinite_nearest_iff] at hn ⊢
    exact lt_of_le_of_lt hmono hn
  rw [ofNat_eq, isFinite_ofMagnitude_iff] at hn hk
  rw [ofNat_eq, ofMagnitude_eq_finite hn] at hfinite
  rw [ofNat_eq, ofMagnitude_eq_finite hk]
  exact isFinite_mul_of_le hmono hfinite

end Binary64

namespace Json

open Binary64 (shortest unit roundedMagnitude maxMagnitude Fits)

/-! ### What the digits of a number are worth -/

/-- The digits that fit into 64 bits, as a number. -/
def significand (whole : List Nat) (fraction : Option (List Nat)) : Nat :=
  (gather (gather 0 whole).1 (fraction.getD [])).1

/-- The power of ten that the significand is scaled by. -/
def decimalScale (whole : List Nat) (fraction : Option (List Nat)) (exponent : Option Int) : Int :=
  let places := fraction.getD []
  exponent.getD 0 + (gather 0 whole).2 - (places.length - (gather (gather 0 whole).1 places).2 : Nat)

variable {whole : List Nat} {fraction : Option (List Nat)} {exponent : Option Int}

/-- A number with a fraction or an exponent is its significand, scaled. -/
theorem numberValue_eq (negative : Bool) (h : fraction ≠ none ∨ exponent ≠ none) :
    numberValue negative whole fraction exponent =
      (scaleByTen 4 (.ofNat (significand whole fraction))
        (decimalScale whole fraction exponent)).map fun x => .float (withSign negative x) := by
  unfold numberValue significand decimalScale
  rcases gather 0 whole with ⟨n, above⟩
  cases fraction with
  | some places => rfl
  | none =>
    cases exponent with
    | some e => rfl
    | none => exact absurd rfl (h.resolve_left (by simp))

/-- Dividing by a power of ten never fails. -/
theorem scaleByTen_of_neg (fuel : Nat) (x : Binary64) {e : Int} (he : e < 0) :
    ∃ y, scaleByTen fuel x e = .ok y := by
  induction fuel generalizing x e with
  | zero => exact ⟨x, rfl⟩
  | succ fuel ih =>
    rw [scaleByTen]
    split
    · rw [if_neg (by omega)]
      exact ⟨_, rfl⟩
    · next hlarge =>
      split
      · exact ⟨x, rfl⟩
      · rw [if_neg (by omega)]
        rw [maxPower] at hlarge ⊢
        exact ih _ (by omega)

theorem exists_numberValue_of_neg (negative : Bool) (h : fraction ≠ none ∨ exponent ≠ none)
    (hneg : decimalScale whole fraction exponent < 0) :
    ∃ x, numberValue negative whole fraction exponent = .ok (.float x) := by
  obtain ⟨y, hy⟩ := scaleByTen_of_neg 4 (.ofNat (significand whole fraction)) hneg
  rw [numberValue_eq negative h, hy]
  exact ⟨_, rfl⟩

/-- The powers of ten that are not cut off at once are rounded. -/
theorem powerOfTen_eq {n : Nat} (h : n ≤ 400) :
    powerOfTen n = .ofMagnitude false (roundedMagnitude (unit * powTen n) 1) := by
  have hzero : (-(n : Int)).toNat = 0 := by omega
  have hleast : Nat.log2 1 * 3 / 10 = 0 := by decide
  have hmost : (Nat.log2 1 + 1) * 31 / 100 = 0 := by decide
  rw [powerOfTen, Binary64.ofDecimal, if_neg Nat.one_ne_zero, hleast, hmost, if_neg (by omega), if_neg (by omega), hzero,
    Nat.one_mul, Int.toNat_natCast]
  rfl

/-- What is finite when a number is multiplied by a power of ten is finite with a lower power. -/
theorem isFinite_mul_powerOfTen_of_le {x : Binary64} {k n : Nat} (hn : n ≤ 400) (h : k ≤ n)
    (hfinite : (x * powerOfTen n).isFinite = true) : (x * powerOfTen k).isFinite = true := by
  have hpower := (Binary64.isFinite_of_isFinite_mul hfinite).2
  have hmono : roundedMagnitude (unit * powTen k) 1 ≤
      roundedMagnitude (unit * powTen n) 1 :=
    Binary64.roundedMagnitude_mono Nat.one_pos (Nat.mul_le_mul_left _ (powTen_le h))
  rw [powerOfTen_eq hn] at hpower hfinite
  rw [Binary64.isFinite_ofMagnitude_iff] at hpower
  have hlower := Binary64.representable_roundedMagnitude (lt_of_le_of_lt hmono hpower.1)
  rw [Binary64.ofMagnitude_eq_finite hpower, Binary64.mul_comm] at hfinite
  rw [powerOfTen_eq (h.trans hn), Binary64.ofMagnitude_eq_finite hlower, Binary64.mul_comm]
  exact Binary64.isFinite_mul_of_le hmono hfinite

/-- Products of seventeen digits with a power of ten, for the largest power with which no digits are too
many, and for the next one. -/
theorem isFinite_largest :
    (Binary64.ofNat (powTen 17) * powerOfTen 291).isFinite = true ∧
    (Binary64.ofNat 17976931348623157 * powerOfTen 292).isFinite = true := by
  decide +kernel

theorem exponent_le_of_le {e : Nat} (h : unit * powTen e ≤ maxMagnitude) : e ≤ 308 := by
  by_contra hlarge
  have hpos : 0 < unit * powTen 292 := Nat.mul_pos Binary64.unit_pos (powTen_pos _)
  have hdigits : maxMagnitude / (unit * powTen 292) < powTen 17 := by
    rw [Binary64.maxMagnitude_digits.2.1]
    decide
  have hmax : maxMagnitude < powTen 17 * (unit * powTen 292) :=
    (Nat.div_lt_iff_lt_mul hpos).1 hdigits
  refine Nat.not_le.2 hmax ?_
  calc powTen 17 * (unit * powTen 292) = unit * powTen (292 + 17) := by
        rw [powTen_add]
        ring
    _ ≤ unit * powTen e := Nat.mul_le_mul_left _ (powTen_le (Nat.lt_of_not_le hlarge))
    _ ≤ maxMagnitude := h

/-- Zeros belong to the significand as well as to the power of ten. -/
theorem mul_powTen_add (n k : Nat) :
    n * (unit * powTen (293 + k)) = n * powTen k * (unit * powTen 293) := by
  rw [powTen_add]
  ring

section LargePower

variable {n k : Nat} (h : n * (unit * powTen (293 + k)) ≤ maxMagnitude)

include h

/-- With at least 293 zeros behind it, a significand has no more than sixteen digits. -/
theorem places_le : n * powTen k ≤ 1797693134862315 := by
  rw [← Binary64.maxMagnitude_digits.2.2.1,
    Nat.le_div_iff_mul_le (Nat.mul_pos Binary64.unit_pos (powTen_pos _)), ← mul_powTen_add]
  exact h

/-- What is added where the power of ten is rounded does not lead past the largest number, since no
product of this kind comes that close to it. -/
theorem mul_rounded_powTen_le : n * roundedMagnitude (unit * powTen (293 + k)) 1 ≤ maxMagnitude := by
  have hone : powTwo 52 ≤ unit * powTen (293 + k) / 1 := by
    rw [Nat.div_one]
    exact (powTwo_le (by decide)).trans (Nat.le_mul_of_pos_right _ (powTen_pos _))
  have hadded := Binary64.roundedMagnitude_mul_le hone
  rw [Nat.mul_one] at hadded
  generalize roundedMagnitude (unit * powTen (293 + k)) 1 = rounded at hadded ⊢
  refine Nat.le_of_mul_le_mul_right ?_ (powTwo_pos 53)
  calc n * rounded * powTwo 53 = n * (rounded * powTwo 53) := Nat.mul_assoc _ _ _
    _ ≤ n * (unit * powTen (293 + k) * (powTwo 53 + 1)) := Nat.mul_le_mul_left n hadded
    _ = n * powTen k * (unit * powTen 293) * (powTwo 53 + 1) := by
      rw [← Nat.mul_assoc, mul_powTen_add]
    _ ≤ 1797693134862315 * (unit * powTen 293) * (powTwo 53 + 1) :=
      Nat.mul_le_mul_right _ (Nat.mul_le_mul_right _ (places_le h))
    _ ≤ maxMagnitude * powTwo 53 := Binary64.maxMagnitude_digits.2.2.2

/-- The significand has no more than 53 bits then, so that it is a number of the format. -/
theorem isFinite_of_large_power (hn : 0 < n) :
    (Binary64.ofNat n * powerOfTen (293 + k)).isFinite = true := by
  have hbits : n ≤ powTwo 53 :=
    (Nat.le_mul_of_pos_right n (powTen_pos k)).trans ((places_le h).trans (by decide))
  have hword : Binary64.Representable (n * unit) := Binary64.representable_mul_powTwo hbits
    (Binary64.mul_unit_lt_limit (hbits.trans (powTwo_le (by decide))))
  have hnat : Binary64.ofNat n = .finite false (n * unit) hword :=
    Binary64.nearest_of_representable hword false
  have hpower : unit * powTen (293 + k) ≤ maxMagnitude := (Nat.le_mul_of_pos_left _ hn).trans h
  have hrounded : roundedMagnitude (unit * powTen (293 + k)) 1 ≤ maxMagnitude :=
    Binary64.roundedMagnitude_le Binary64.representable_maxMagnitude.2 Nat.one_pos
      (hpower.trans_eq (Nat.mul_one _).symm)
  have hfits := Binary64.representable_roundedMagnitude
    (lt_of_le_of_lt hrounded Binary64.representable_maxMagnitude.1)
  rw [hnat, powerOfTen_eq ((exponent_le_of_le hpower).trans (by decide)),
    Binary64.ofMagnitude_eq_finite hfits, Binary64.finite_mul_finite, Binary64.isFinite_nearest_iff]
  refine lt_of_le_of_lt (Binary64.roundedMagnitude_le Binary64.representable_maxMagnitude.2
    Binary64.unit_pos ?_) Binary64.representable_maxMagnitude.1
  calc n * unit * roundedMagnitude (unit * powTen (293 + k)) 1
      = n * roundedMagnitude (unit * powTen (293 + k)) 1 * unit := by ring
    _ ≤ maxMagnitude * unit := Nat.mul_le_mul_right _ (mul_rounded_powTen_le h)

end LargePower

/-- Seventeen digits times a power of ten stay finite, if this is no more than the largest number. -/
theorem isFinite_ofNat_mul_powerOfTen {n e : Nat} (hn : 0 < n) (hdigits : n ≤ powTen 17)
    (h : n * (unit * powTen e) ≤ maxMagnitude) :
    (Binary64.ofNat n * powerOfTen e).isFinite = true := by
  rcases Nat.lt_trichotomy e 292 with hlow | rfl | hhigh
  · refine Binary64.isFinite_ofNat_mul_of_le hdigits
      (isFinite_mul_powerOfTen_of_le (by decide) (Nat.le_of_lt_succ hlow) isFinite_largest.1)
  · refine Binary64.isFinite_ofNat_mul_of_le ?_ isFinite_largest.2
    rw [← Binary64.maxMagnitude_digits.2.1,
      Nat.le_div_iff_mul_le (Nat.mul_pos Binary64.unit_pos (powTen_pos _))]
    exact h
  · obtain ⟨k, rfl⟩ := Nat.exists_eq_add_of_le (Nat.succ_le_of_lt hhigh)
    exact isFinite_of_large_power h hn

/-- Multiplying does not fail if the exact product is no more than the largest number. -/
theorem scaleByTen_of_le {fuel n : Nat} {e : Int} (he : 0 ≤ e) (hn : 0 < n)
    (hdigits : n ≤ powTen 17) (h : n * (unit * powTen e.toNat) ≤ maxMagnitude) :
    ∃ y, scaleByTen (fuel + 1) (.ofNat n) e = .ok y := by
  have habs : e.natAbs = e.toNat := by omega
  have hpower : e.natAbs ≤ maxPower := by
    rw [habs]
    exact exponent_le_of_le ((Nat.le_mul_of_pos_left _ hn).trans h)
  have hfinite : (Binary64.ofNat n * powerOfTen e.natAbs).isFinite = true := by
    rw [habs]
    exact isFinite_ofNat_mul_powerOfTen hn hdigits h
  rw [scaleByTen, if_pos hpower, if_pos he]
  dsimp only
  rw [if_pos hfinite]
  exact ⟨_, rfl⟩

theorem gather_snd_le (n : Nat) (ds : List Nat) : (gather n ds).2 ≤ ds.length := by
  induction ds generalizing n with
  | nil => exact Nat.le_refl 0
  | cons d ds ih =>
    rw [gather]
    split
    · exact (ih _).trans (Nat.le_succ _)
    · exact Nat.le_refl _

theorem charValue_le {c : Char} (h : c.isDigit = true) : c.toNat - '0'.toNat ≤ 9 := by
  obtain ⟨-, hle⟩ := toNat_of_isDigit h
  change c.toNat - 48 ≤ 9
  omega

/-- The value of some digits. -/
theorem foldl_charValues_lt {cs : List Char} (hcs : ∀ c ∈ cs, c.isDigit = true) (n : Nat) :
    (charValues cs).foldl (fun n d => 10 * n + d) n < (n + 1) * powTen cs.length := by
  induction cs generalizing n with
  | nil =>
    have hone : powTen 0 = 1 := rfl
    simp [charValues, hone]
  | cons c cs ih =>
    have hc := charValue_le (hcs c (by simp))
    have hrest := ih (fun d hd => hcs d (by simp [hd])) (10 * n + (c.toNat - '0'.toNat))
    rw [List.length_cons, powTen_succ]
    refine lt_of_lt_of_le hrest ?_
    calc (10 * n + (c.toNat - '0'.toNat) + 1) * powTen cs.length
        ≤ (10 * (n + 1)) * powTen cs.length := Nat.mul_le_mul_right _ (by omega)
      _ = (n + 1) * (powTen cs.length * 10) := by ring

/-- Sixteen digits fit into 64 bits, and there is room for one more. -/
theorem decimalScale_of_length_le {cs : List Char} {c : Char} {ds : List Char}
    (hcs : ∀ c ∈ cs, c.isDigit = true) (hlength : cs.length ≤ 16) (hc : c.isDigit = true) :
    decimalScale (charValues cs) (some (charValues (c :: ds))) none < 0 := by
  have hvalue := foldl_charValues_lt hcs 0
  have hpow : powTen cs.length ≤ powTen 16 := powTen_le hlength
  have hroom : powTen 17 < powTwo 64 := by decide
  have hten : powTen 17 = powTen 16 * 10 := rfl
  rw [Nat.zero_add, Nat.one_mul] at hvalue
  have hgather := gather_eq (charValues cs) 0 (by omega)
  generalize (charValues cs).foldl (fun n d => 10 * n + d) 0 = n at hvalue hgather
  have hdigit := charValue_le hc
  have hfirst : (gather n (charValues (c :: ds))).2 ≤ ds.length := by
    rw [charValues, List.map_cons, gather, if_pos (by omega)]
    exact (gather_snd_le _ _).trans (le_of_eq (List.length_map _))
  have hall : (charValues (c :: ds)).length = ds.length + 1 := List.length_map _
  simp only [decimalScale, hgather, Option.getD_some, Option.getD_none, hall]
  omega

/-! ### Texts -/

theorem isDigit_digits {d : Decimal} {c : Char} (h : c ∈ d.digits) : c.isDigit = true :=
  Nat.isDigit_of_mem_toDigits (by decide) (by decide) h

theorem isDigit_replicate {n : Nat} {c : Char} (h : c ∈ List.replicate n '0') :
    c.isDigit = true := by
  rw [List.eq_of_mem_replicate h]
  decide

/-- A single digit may always stand before the point. -/
theorem isWholeDigits_singleton {c : Char} (h : c.isDigit = true) : IsWholeDigits [c] where
  ne_nil := by simp
  isDigit := by simpa using h
  head := by
    by_cases hc : c = '0'
    · exact Or.inl (by rw [hc])
    · exact Or.inr (by simpa using hc)

variable {d : Decimal}

theorem places_of_digits {c : Char} {rest : List Char} (h : d.digits = c :: rest) :
    d.places = rest.length + 1 + d.exponent := by
  rw [Decimal.places, h, List.length_cons]
  push_cast
  ring

/-- The digits of a decimal, the first of which is not zero unless the decimal is. -/
theorem exists_digits_eq (d : Decimal) : ∃ c rest, d.digits = c :: rest ∧
    (∀ x ∈ c :: rest, x.isDigit = true) ∧ (c = '0' → d.coefficient = 0) := by
  obtain ⟨c, rest, hdigits⟩ := List.exists_cons_of_ne_nil
    (Nat.toDigits_ne_nil (n := d.coefficient) (b := 10))
  change d.digits = c :: rest at hdigits
  refine ⟨c, rest, hdigits, fun x hx => isDigit_digits (d := d) (hdigits ▸ hx), ?_⟩
  rintro rfl
  rcases (isWholeDigits_toDigits d.coefficient).head with hzero | hhead
  · rw [← Nat.ofDigitChars_ten_toDigits (n := d.coefficient), hzero]
    rfl
  · change d.digits.head? ≠ _ at hhead
    rw [hdigits] at hhead
    exact absurd rfl hhead

/-- Written positionally, a decimal with at most sixteen places has digits before and after the
point. -/
theorem exists_written_positional (negative : Bool) (hzero : d.coefficient = 0 → d.exponent = 0)
    (hplaces : d.places ≤ 16) :
    ∃ cs c ds, IsWholeDigits cs ∧ cs.length ≤ 16 ∧ (∀ x ∈ c :: ds, x.isDigit = true) ∧
      (⟨negative, cs, some (c :: ds), none⟩ : Written).chars = (if negative then ['-'] else []) ++
        (d.positional ++ if d.isWhole then layout.wholeEnding else []) := by
  obtain ⟨first, rest, hdigits, hrest, hfirst⟩ := exists_digits_eq d
  have hcount := places_of_digits hdigits
  have hlength : d.digits.length = rest.length + 1 := by rw [hdigits, List.length_cons]
  rw [Decimal.positional]
  by_cases hwhole : d.isWhole = true
  · have hexponent : 0 ≤ d.exponent := by simpa [Decimal.isWhole] using hwhole
    refine ⟨d.digits ++ List.replicate d.exponent.toNat '0', '0', [], ⟨?_, ?_, ?_⟩, ?_, ?_, ?_⟩
    · simp [hdigits]
    · intro x hx
      rcases List.mem_append.1 hx with hx | hx
      · exact isDigit_digits hx
      · exact isDigit_replicate hx
    · -- Only zero begins with a zero, and then nothing follows it.
      by_cases hc : first = '0'
      · have hnone := hzero (hfirst hc)
        have hcoefficient := hfirst hc
        refine Or.inl ?_
        rw [hnone, Decimal.digits, hcoefficient]
        rfl
      · refine Or.inr ?_
        simpa [hdigits] using hc
    · rw [List.length_append, List.length_replicate]
      omega
    · simp
    · simp [Written.chars, Written.fractionChars, Written.exponentChars, hwhole, layout]
  have hexponent : d.exponent < 0 := by simpa [Decimal.isWhole] using hwhole
  have hne : first ≠ '0' := by
    intro hc
    have hnone := hzero (hfirst hc)
    omega
  by_cases hpos : 0 < d.places
  · obtain ⟨c, ds, hdrop⟩ := List.exists_cons_of_ne_nil
      (l := d.digits.drop d.places.toNat) (by rw [Ne, List.drop_eq_nil_iff]; omega)
    have hsucc : d.places.toNat = (d.places.toNat - 1) + 1 := by omega
    refine ⟨d.digits.take d.places.toNat, c, ds, ⟨?_, ?_, ?_⟩, ?_, ?_, ?_⟩
    · rw [hdigits, hsucc]
      simp
    · exact fun x hx => isDigit_digits (List.mem_of_mem_take hx)
    · refine Or.inr ?_
      rw [hdigits, hsucc]
      simpa using hne
    · rw [List.length_take]
      omega
    · intro x hx
      rw [← hdrop] at hx
      exact isDigit_digits (List.mem_of_mem_drop hx)
    · simp [Written.chars, Written.fractionChars, Written.exponentChars, hwhole, hpos, hdrop]
  · -- The digits begin after the point, behind zeros.
    obtain ⟨c, ds, hall⟩ := List.exists_cons_of_ne_nil
      (l := List.replicate (-d.places).toNat '0' ++ d.digits) (by simp [hdigits])
    refine ⟨['0'], c, ds, isWholeDigits_singleton (by decide), by decide, ?_, ?_⟩
    · intro x hx
      rw [← hall] at hx
      rcases List.mem_append.1 hx with hx | hx
      · exact isDigit_replicate hx
      · exact isDigit_digits hx
    · simp [Written.chars, Written.fractionChars, Written.exponentChars, hwhole, hpos, ← hall]

/-- The parts of a decimal that is written with an exponent. -/
def Written.scientific (negative : Bool) (c : Char) (rest : List Char) (exponent : Int) : Written :=
  ⟨negative, [c], if rest.isEmpty then none else some rest,
    some (decide (exponent < 0), Nat.toDigits 10 exponent.natAbs)⟩

theorem Written.scale?_scientific (negative : Bool) (c : Char) (rest : List Char)
    (exponent : Int) : (scientific negative c rest exponent).scale? = some exponent := by
  have hvalue : Decimal.ofDigits (charValues (Nat.toDigits 10 exponent.natAbs)) =
      exponent.natAbs := by
    rw [Decimal.ofDigits, ofDigits_charValues, Nat.ofDigitChars_ten_toDigits]
  simp only [scale?, scientific, Option.map_some, hvalue, decide_eq_true_eq, Option.some_inj]
  split <;> omega

theorem Written.isWellFormed_scientific (negative : Bool) {c : Char} {rest : List Char}
    (h : ∀ x ∈ c :: rest, x.isDigit = true) (exponent : Int) :
    (scientific negative c rest exponent).IsWellFormed where
  whole := isWholeDigits_singleton (h c (by simp))
  fraction ds hds := by
    cases rest with
    | nil => cases hds
    | cons x more =>
      obtain rfl : x :: more = ds := Option.some.inj hds
      exact ⟨by simp, fun y hy => h y (List.mem_cons_of_mem c hy)⟩
  exponent sign ds hds := by
    obtain ⟨-, rfl⟩ := Prod.mk.inj (Option.some.inj hds)
    exact ⟨Nat.toDigits_ne_nil, fun x hx =>
      Nat.isDigit_of_mem_toDigits (by decide) (by decide) hx⟩

theorem chars_scientific (negative : Bool) {c : Char} {rest : List Char}
    (hdigits : d.digits = c :: rest) :
    (Written.scientific negative c rest (d.places - 1)).chars =
      (if negative then ['-'] else []) ++ d.scientific := by
  cases rest <;> simp [Written.scientific, Written.chars, Written.fractionChars,
    Written.exponentChars, Decimal.scientific, hdigits]

/-- All digits of a decimal are used if they fit into 64 bits. -/
theorem gather_digits {c : Char} {rest : List Char} (hdigits : d.digits = c :: rest)
    (h : d.coefficient < powTwo 64) :
    gather (gather 0 (charValues [c])).1 (charValues rest) = (d.coefficient, 0) ∧
      (gather 0 (charValues [c])).2 = 0 := by
  have hvalue : (charValues (c :: rest)).foldl (fun n d => 10 * n + d) 0 = d.coefficient := by
    rw [ofDigits_charValues, ← hdigits, Decimal.digits, Nat.ofDigitChars_ten_toDigits]
  rw [charValues, List.map_cons, List.foldl_cons] at hvalue
  have hfirst : gather 0 (charValues [c]) = (10 * 0 + (c.toNat - '0'.toNat), 0) := by
    refine gather_eq _ 0 ?_
    have hle := le_foldl_digits (charValues rest) (10 * 0 + (c.toNat - '0'.toNat))
    rw [charValues, hvalue] at hle
    exact lt_of_le_of_lt hle h
  have hrest := gather_eq (charValues rest) (10 * 0 + (c.toNat - '0'.toNat)) (by
    rw [charValues, hvalue]
    exact h)
  rw [hfirst, hrest, charValues, hvalue]
  exact ⟨rfl, rfl⟩

/-- Written with an exponent, a decimal is read as some number if it is no larger than the largest
one. -/
theorem exists_numberValue_scientific (negative : Bool) {m : Nat} {c : Char} {rest : List Char}
    (hdigits : d.digits = c :: rest) (hfits : Fits m d)
    (hmax : 0 ≤ d.exponent →
      d.coefficient * (unit * powTen d.exponent.toNat) ≤ maxMagnitude)
    (hfraction : fraction.getD [] = charValues rest) :
    ∃ x, numberValue negative (charValues [c]) fraction (some (d.places - 1)) = .ok (.float x) := by
  have hexponent : fraction ≠ none ∨ some (d.places - 1) ≠ none := Or.inr (by simp)
  have hbound : d.coefficient < powTwo 64 := lt_of_le_of_lt hfits.le_powTen (by decide)
  obtain ⟨hall, hnone⟩ := gather_digits hdigits hbound
  have hsignificand : significand (charValues [c]) fraction = d.coefficient := by
    rw [significand, hfraction, hall]
  have hscale : decimalScale (charValues [c]) fraction (some (d.places - 1)) = d.exponent := by
    have hlength : (charValues rest).length = rest.length := List.length_map _
    have hplaces := places_of_digits hdigits
    simp only [decimalScale, hfraction, hall, hnone, Option.getD_some, hlength]
    omega
  rcases Int.lt_or_le d.exponent 0 with hneg | hpos
  · exact exists_numberValue_of_neg negative hexponent (hscale.trans_lt hneg)
  · obtain ⟨y, hy⟩ : ∃ y, scaleByTen 4 (.ofNat d.coefficient) d.exponent = .ok y :=
      scaleByTen_of_le hpos hfits.pos hfits.le_powTen (hmax hpos)
    rw [numberValue_eq negative hexponent, hscale, hsignificand, hy]
    exact ⟨_, rfl⟩

/-- The text of a finite number is that of a well-formed number, and it is read as some number. -/
theorem exists_written (negative : Bool) {m : Nat} (h : Binary64.Representable m) :
    ∃ w : Written, w.IsWellFormed ∧
      numberText (.finite negative m h) = String.ofList w.chars ∧
      ∃ x, numberValue w.negative (charValues w.whole) (w.fraction.map charValues) w.scale? =
        .ok (.float x) := by
  have htext : ∀ w : Written, w.chars = (if negative then ['-'] else []) ++
      layout.write (shortest .toEven m) →
      numberText (.finite negative m h) = String.ofList w.chars := by
    intro w hw
    rw [hw, String.ofList_append]
    cases negative <;> rfl
  have hspec := Binary64.shortest_spec .toEven m
  have hmax := Binary64.shortest_le_maxMagnitude h
  generalize shortest .toEven m = d at htext hspec hmax
  rw [Decimal.Layout.write] at htext
  by_cases hlayout : layout.isPositional d.places = true
  · -- Positionally, some digit after the point is used, so that the power of ten is negative.
    rw [if_pos hlayout] at htext
    have hrange : -4 ≤ d.places ∧ d.places ≤ 16 := by
      simpa only [layout, Decimal.Layout.isPositional, Bool.and_eq_true, decide_eq_true_eq]
        using hlayout
    have hzero : d.coefficient = 0 → d.exponent = 0 := by
      rcases hspec with rfl | ⟨-, hfits⟩
      · exact fun _ => rfl
      · exact fun hnone => absurd hnone hfits.pos.ne'
    obtain ⟨cs, c, ds, hcs, hlength, hds, hchars⟩ :=
      exists_written_positional negative hzero hrange.2
    refine ⟨⟨negative, cs, some (c :: ds), none⟩, ⟨hcs, ?_, ?_⟩, htext _ hchars, ?_⟩
    · rintro _ ⟨⟩
      exact ⟨by simp, hds⟩
    · rintro _ _ ⟨⟩
    · exact exists_numberValue_of_neg negative (Or.inl (by simp))
        (decimalScale_of_length_le hcs.isDigit hlength (hds c (by simp)))
  · rw [if_neg hlayout] at htext
    -- Zero has one place, so it is not written with an exponent.
    have hfits : Fits m d := by
      rcases hspec with rfl | ⟨-, hfits⟩
      · exact absurd (by decide) hlayout
      · exact hfits
    obtain ⟨c, rest, hdigits, hrest, -⟩ := exists_digits_eq d
    refine ⟨.scientific negative c rest (d.places - 1), Written.isWellFormed_scientific negative
      hrest _, htext _ (chars_scientific negative hdigits), ?_⟩
    rw [Written.scale?_scientific]
    refine exists_numberValue_scientific negative hdigits hfits (hmax hfits) ?_
    cases rest <;> rfl

end Json

end Simulcast
