import Simulcast.Proofs.Binary64.Share
import Simulcast.Proofs.Estimator.Calls

/-!
# How a cap falls

While an estimator is capped its cap only falls. How far it falls in a congested tick depends on the
rate that was received if the congestion is severe, and on the cap itself if it is not. A tick of the
second kind takes a quarter of the cap at least, in spite of all rounding, until the least cap is
reached. So the number of such ticks that it takes to get there is bounded by the ceiling alone, and
there the cap stays until it is given up.

None of this needs the ceiling to be a whole rate, or to be above the least cap. If it is not, the
ceiling is all there is.

## Main definitions

* `Estimator.IsBounded` — the cap is between the least cap and a finite ceiling
* `Estimator.StaysCapped` — some operations that leave the cap in force all the time
* `Estimator.mildTicks` — how many of some operations are congested ticks that are not severe
* `Estimator.ticksToLeast` — how many of them are enough

## Main results

* `Estimator.IsCoherent.staysCapped_update_iff` — a cap stays in force through congested ticks
* `Estimator.IsBounded.loweredCap_of_mild` — a quarter of the cap is taken, or the least cap is reached
* `Estimator.run_backs_off_to_least` — the cap after any operations
-/

namespace Simulcast.Estimator

open Binary64 (unit)

variable {e : Estimator} {a : Assessment}

/-! ### The factor of a mild tick -/

/-- The factor is about 0.7, with room for the rounding of a product. -/
theorem backoffFactor_eq :
    ∃ n h, backoffFactor = .finite false n h ∧ powTwo 52 ≤ n ∧
      100 * (n * (powTwo 53 + 1)) ≤ 71 * (unit * powTwo 53) := by
  obtain ⟨hfinite, hlast, hsmall⟩ : backoffFactor.isFinite = true ∧
      (powTwo 52 : Nat) ≤ backoffFactor.place ∧
        100 * (backoffFactor.place * (powTwo 53 + 1 : Nat)) ≤ (71 * (unit * powTwo 53) : Nat) := by
    decide +kernel
  have hpos := powTwo_pos 52
  obtain ⟨n, hn, heq⟩ := Binary64.exists_finite_of_place_pos hfinite (by omega)
  rw [heq, Binary64.place_finite, Binary64.signed, if_neg Bool.false_ne_true] at hlast hsmall
  exact ⟨n, hn, heq, Int.ofNat_le.1 hlast, by exact_mod_cast hsmall⟩

/-- A number that is not tiny loses a quarter at least. -/
theorem place_round_mul_backoffFactor {x : Binary64} (hfinite : x.isFinite = true)
    (hlarge : 13 * (unit : Int) ≤ x.place) :
    (x * backoffFactor).round.isFinite = true ∧
      4 * (x * backoffFactor).round.place ≤ 3 * x.place := by
  have hunit := Binary64.unit_pos
  obtain ⟨m, hm, rfl⟩ := Binary64.exists_finite_of_place_pos hfinite (by omega)
  obtain ⟨n, hn, heq, hlast, hsmall⟩ := backoffFactor_eq
  rw [Binary64.place_finite, Binary64.signed, if_neg Bool.false_ne_true] at hlarge ⊢
  have hlarge : 13 * unit ≤ m := by omega
  have hbits : powTwo 52 ≤ m * n / unit := by
    rw [Nat.le_div_iff_mul_le hunit, Nat.mul_comm m n]
    exact Nat.mul_le_mul hlast (by omega)
  have hproduct : 100 * Binary64.roundedMagnitude (m * n) unit ≤ 71 * m :=
    Binary64.roundedMagnitude_mul_fraction_le hbits hsmall
  have hlimit : Binary64.roundedMagnitude (m * n) unit < Binary64.limit := by
    have := hm.1
    omega
  have hwhole := Binary64.two_mul_wholeMagnitude_le (Binary64.roundedMagnitude (m * n) unit)
  rw [heq, Binary64.round_mul_eq hm hn hlimit, Bool.xor_false, Binary64.place_finite,
    Binary64.signed, if_neg Bool.false_ne_true]
  refine ⟨rfl, ?_⟩
  generalize Binary64.wholeMagnitude (Binary64.roundedMagnitude (m * n) unit) * unit = w at hwhole ⊢
  omega

/-! ### One tick -/

/-- The ceiling is finite, and the cap is a number between the ceiling and the least cap, or the
ceiling if that is even lower. -/
structure IsBounded (e : Estimator) : Prop extends IsCoherent e where
  ceiling : e.config.ceilings.high.isValid = true
  ne_nan : e.capHigh.bps ≠ .nan
  least : (min leastCap e.config.ceilings.high).bps.rank ≤ e.capHigh.bps.rank
  most : e.capHigh.bps.rank ≤ e.config.ceilings.high.bps.rank

theorem leastCap_ne_nan : leastCap.bps ≠ .nan := leastCap_isWhole.ne_nan

theorem rank_min_leastCap {ceiling : Bitrate} (h : ceiling.bps ≠ .nan) :
    (min leastCap ceiling).bps.rank = min leastCap.bps.rank ceiling.bps.rank :=
  Binary64.rank_min leastCap_ne_nan h

theorem isBounded_ofConfig {config : Config} (h : config.ceilings.high.isValid = true) :
    (ofConfig config).IsBounded :=
  have hnan : config.ceilings.high.bps ≠ .nan := Binary64.ne_nan_of_isFinite h
  { isCoherent_ofConfig config with
    ceiling := h
    ne_nan := hnan
    least := (rank_min_leastCap hnan).trans_le (min_le_right _ _)
    most := le_rfl }

theorem IsBounded.ceiling_ne_nan (h : e.IsBounded) : e.config.ceilings.high.bps ≠ .nan :=
  Binary64.ne_nan_of_isFinite h.ceiling

/-- The rate that the cap is to be lowered to, before the old cap is looked at. -/
def target (e : Estimator) (a : Assessment) : Bitrate :=
  let received : Bitrate := ⟨a.averageKilo * 1000⟩
  if a.severe then received * severeFactor
  else if e.capped then e.capHigh * backoffFactor
  else received * backoffFactor

theorem loweredCap_eq (e : Estimator) (a : Assessment) :
    e.loweredCap a =
      let cap := (e.target a).round.clamp leastCap e.config.ceilings.high
      if e.capped then min cap e.capHigh else cap := rfl

/-- Congestion does not raise a cap in force. -/
theorem IsBounded.rank_loweredCap (h : e.IsBounded) (hcapped : e.capped = true) (a : Assessment) :
    (e.loweredCap a).bps.rank =
      min ((e.target a).round.clamp leastCap e.config.ceilings.high).bps.rank
        e.capHigh.bps.rank := by
  obtain ⟨hnan, -⟩ :=
    Bitrate.rank_clamp_between (e.target a).round leastCap_ne_nan h.ceiling_ne_nan
  rw [loweredCap_eq]
  dsimp only
  rw [if_pos hcapped]
  exact Binary64.rank_min hnan h.ne_nan

/-- The lowered cap is within the bounds again. -/
theorem IsBounded.loweredCap (h : e.IsBounded) (a : Assessment) :
    (e.loweredCap a).bps ≠ .nan ∧
      (min leastCap e.config.ceilings.high).bps.rank ≤ (e.loweredCap a).bps.rank ∧
      (e.loweredCap a).bps.rank ≤ e.config.ceilings.high.bps.rank := by
  obtain ⟨hnan, hleast, hmost⟩ :=
    Bitrate.rank_clamp_between (e.target a).round leastCap_ne_nan h.ceiling_ne_nan
  cases hcapped : e.capped with
  | true =>
    have hsome : (e.loweredCap a).bps ≠ .nan := by
      rw [loweredCap_eq]
      dsimp only
      rw [if_pos hcapped]
      exact Binary64.min_ne_nan hnan
    rw [h.rank_loweredCap hcapped a]
    exact ⟨hsome, le_min hleast h.least, (min_le_left _ _).trans hmost⟩
  | false =>
    rw [loweredCap_eq]
    dsimp only
    rw [if_neg (by simp [hcapped])]
    exact ⟨hnan, hleast, hmost⟩

theorem leastCap_large : 13 * (unit : Int) ≤ leastCap.bps.place := by decide +kernel

/-- Above the least cap, the cap is a finite number and not tiny. -/
theorem IsBounded.large (h : e.IsBounded)
    (habove : (min leastCap e.config.ceilings.high).bps.place < e.capHigh.bps.place) :
    e.capHigh.bps.isFinite = true ∧ 13 * (unit : Int) ≤ e.capHigh.bps.place := by
  have hmost := Binary64.place_le_of_rank_le h.most
  -- The ceiling is above the least cap, since the cap is.
  have hleast : leastCap.bps.place ≤ (min leastCap e.config.ceilings.high).bps.place := by
    rcases Bitrate.min_choice leastCap_ne_nan h.ceiling_ne_nan with hmin | hmin
    · rw [hmin]
    · rw [hmin] at habove
      exact absurd hmost (not_le.2 habove)
  have hlarge := leastCap_large.trans (hleast.trans habove.le)
  have hpos : 0 < e.capHigh.bps.place := by
    have := Binary64.unit_pos
    omega
  exact ⟨Binary64.isFinite_of_place_le h.ne_nan hpos hmost h.ceiling, hlarge⟩

/-- A congested tick that is not severe takes a quarter of the cap, or leaves the least cap. -/
theorem IsBounded.loweredCap_of_mild (h : e.IsBounded) (hcapped : e.capped = true)
    (hmild : a.severe = false) :
    4 * (e.loweredCap a).bps.place ≤
      max (4 * (min leastCap e.config.ceilings.high).bps.place) (3 * e.capHigh.bps.place) := by
  have hrank := h.rank_loweredCap hcapped a
  have hcap : (e.loweredCap a).bps.place ≤ e.capHigh.bps.place :=
    Binary64.place_le_of_rank_le (hrank.trans_le (min_le_right _ _))
  rcases le_or_gt e.capHigh.bps.place (min leastCap e.config.ceilings.high).bps.place with
    hle | habove
  · exact le_max_of_le_left (by omega)
  · obtain ⟨hfinite, hlarge⟩ := h.large habove
    obtain ⟨hvalid, hround⟩ := place_round_mul_backoffFactor hfinite hlarge
    have htarget : (e.target a).round = ⟨(e.capHigh.bps * backoffFactor).round⟩ := by
      unfold target
      dsimp only
      rw [if_neg (by simp [hmild]), if_pos hcapped]
      rfl
    -- The limits can only stop the fall at the least cap.
    have hclamp := (Bitrate.rank_clamp (e.target a).round leastCap_ne_nan h.ceiling_ne_nan).2
    rw [htarget, if_pos (by exact hvalid)] at hclamp
    have hlower : (e.loweredCap a).bps.rank ≤
        max (e.capHigh.bps * backoffFactor).round.rank
          (min leastCap e.config.ceilings.high).bps.rank := by
      rw [hrank, htarget, hclamp]
      exact (min_le_left _ _).trans (min_le_left _ _)
    rcases le_max_iff.1 hlower with hlow | hlow
    · have := Binary64.place_le_of_rank_le hlow
      exact le_max_of_le_right (by omega)
    · have := Binary64.place_le_of_rank_le hlow
      exact le_max_of_le_left (by omega)

/-! ### Several operations -/

theorem IsBounded.step (h : e.IsBounded) (call : Call) : (e.step call).IsBounded := by
  have hconfig := step_config e call
  -- It is enough to look at the cap.
  have hcap : (e.step call).capHigh.bps ≠ .nan ∧
      (min leastCap e.config.ceilings.high).bps.rank ≤ (e.step call).capHigh.bps.rank ∧
      (e.step call).capHigh.bps.rank ≤ e.config.ceilings.high.bps.rank := by
    have hfull := isBounded_ofConfig h.ceiling
    cases call with
    | acknowledge => exact ⟨h.ne_nan, h.least, h.most⟩
    | reset => exact ⟨hfull.ne_nan, hfull.least, hfull.most⟩
    | update t =>
      change (e.tick t).1.capHigh.bps ≠ .nan ∧ _ ≤ (e.tick t).1.capHigh.bps.rank ∧
        (e.tick t).1.capHigh.bps.rank ≤ _
      cases hcongested : (e.assessed t.sample).congested with
      | true =>
        rw [capHigh_of_congested hcongested]
        exact h.loweredCap _
      | false =>
        cases hcapped : e.capped with
        | true =>
          rw [h.tick_of_relieved hcongested hcapped]
          exact ⟨hfull.ne_nan, hfull.least, hfull.most⟩
        | false =>
          rw [h.tick_of_quiet hcongested hcapped]
          exact ⟨h.ne_nan, h.least, h.most⟩
  rw [← hconfig] at hcap
  exact { h.toIsCoherent.step call with
    ceiling := hconfig ▸ h.ceiling
    ne_nan := hcap.1
    least := hcap.2.1
    most := hcap.2.2 }

theorem IsBounded.run (h : e.IsBounded) (calls : List Call) : (e.run calls).IsBounded := by
  induction calls generalizing e with
  | nil => exact h
  | cons call calls ih => exact ih (h.step call)

/-! ### While there is a cap -/

/-- Is the operation a congested tick that is not severe? -/
def isMild (e : Estimator) : Call → Bool
  | .update t => (e.assessed t.sample).congested && !(e.assessed t.sample).severe
  | _ => false

/-- The operations leave the cap in force that there is at the beginning. -/
def StaysCapped (e : Estimator) : List Call → Prop
  | [] => e.capped = true
  | call :: calls => e.capped = true ∧ (e.step call).StaysCapped calls

instance decidableStaysCapped :
    (e : Estimator) → (calls : List Call) → Decidable (e.StaysCapped calls)
  | e, [] => inferInstanceAs (Decidable (e.capped = true))
  | e, call :: calls =>
    have := decidableStaysCapped (e.step call) calls
    inferInstanceAs (Decidable (_ ∧ _))

/-- How many of the operations are congested ticks that are not severe. -/
def mildTicks (e : Estimator) : List Call → Nat
  | [] => 0
  | call :: calls => (if e.isMild call then 1 else 0) + (e.step call).mildTicks calls

/-- So many congested ticks that are not severe are enough to get from the ceiling to the least cap.
Each three of them take more than half of the cap. -/
def ticksToLeast (ceiling : Bitrate) : Nat :=
  3 * ((ceiling.bps.place / leastCap.bps.place).toNat.log2 + 1)

theorem StaysCapped.capped {calls : List Call} (h : e.StaysCapped calls) : e.capped = true := by
  cases calls with
  | nil => exact h
  | cons call calls => exact h.1

/-- As far as ticks go, a cap stays in force through the congested ones. -/
theorem IsCoherent.staysCapped_update_iff (h : e.IsCoherent) (t : Tick) (calls : List Call) :
    e.StaysCapped (.update t :: calls) ↔
      e.capped = true ∧ (e.assessed t.sample).congested = true ∧
        (e.tick t).1.StaysCapped calls := by
  rw [← h.tick_capped t]
  exact ⟨fun ⟨hcapped, hmore⟩ => ⟨hcapped, hmore.capped, hmore⟩,
    fun ⟨hcapped, _, hmore⟩ => ⟨hcapped, hmore⟩⟩

/-- An operation that leaves the cap in force does not raise it. -/
theorem IsBounded.step_le (h : e.IsBounded) {call : Call} (hcapped : e.capped = true)
    (hafter : (e.step call).capped = true) :
    (e.step call).capHigh.bps.rank ≤ e.capHigh.bps.rank ∧
      (e.isMild call = true → 4 * (e.step call).capHigh.bps.place ≤
        max (4 * (min leastCap e.config.ceilings.high).bps.place)
          (3 * e.capHigh.bps.place)) := by
  cases call with
  | acknowledge => exact ⟨le_rfl, by rintro ⟨⟩⟩
  | reset => cases hafter
  | update t =>
    have hcongested : (e.assessed t.sample).congested = true := (h.tick_capped t).symm.trans hafter
    change (e.tick t).1.capHigh.bps.rank ≤ _ ∧ (_ → 4 * (e.tick t).1.capHigh.bps.place ≤ _)
    rw [capHigh_of_congested hcongested]
    refine ⟨(h.rank_loweredCap hcapped _).trans_le (min_le_right _ _), fun hmild => ?_⟩
    rw [isMild, hcongested, Bool.true_and, Bool.not_eq_true'] at hmild
    exact h.loweredCap_of_mild hcapped hmild

theorem IsBounded.run_le (h : e.IsBounded) {calls : List Call} (hcalls : e.StaysCapped calls) :
    (e.run calls).capHigh.bps.rank ≤ e.capHigh.bps.rank := by
  induction calls generalizing e with
  | nil => exact le_rfl
  | cons call calls ih =>
    exact (ih (h.step call) hcalls.2).trans (h.step_le hcalls.1 hcalls.2.capped).1

/-- Each of the ticks takes its quarter, until the least cap is reached. -/
theorem IsBounded.run_fall (h : e.IsBounded) {calls : List Call} (hcalls : e.StaysCapped calls) :
    (e.run calls).capHigh.bps.place ≤ (min leastCap e.config.ceilings.high).bps.place ∨
      4 ^ e.mildTicks calls * (e.run calls).capHigh.bps.place ≤
        3 ^ e.mildTicks calls * e.capHigh.bps.place := by
  induction calls generalizing e with
  | nil => exact Or.inr le_rfl
  | cons call calls ih =>
    obtain ⟨hcap, hmild⟩ := h.step_le hcalls.1 hcalls.2.capped
    have hlater := (h.step call).run_le hcalls.2
    have hrest := ih (h.step call) hcalls.2
    rw [step_config] at hrest
    change ((e.step call).run calls).capHigh.bps.place ≤ _ ∨
      4 ^ ((if e.isMild call then 1 else 0) + (e.step call).mildTicks calls) *
          ((e.step call).run calls).capHigh.bps.place ≤
        3 ^ ((if e.isMild call then 1 else 0) + (e.step call).mildTicks calls) * _
    refine hrest.elim Or.inl fun hrest => ?_
    have hthree : (0 : Int) ≤ 3 ^ (e.step call).mildTicks calls := by positivity
    cases hkind : e.isMild call with
    | false =>
      rw [if_neg Bool.false_ne_true, Nat.zero_add]
      exact Or.inr (hrest.trans
        (mul_le_mul_of_nonneg_left (Binary64.place_le_of_rank_le hcap) hthree))
    | true =>
      rw [if_pos rfl, pow_add, pow_add, pow_one, pow_one, mul_assoc, mul_assoc]
      rcases le_max_iff.1 (hmild hkind) with hleast | hquarter
      · -- The least cap was reached in this tick, and it is not left again.
        have hplace := Binary64.place_le_of_rank_le hlater
        exact Or.inl (by omega)
      · refine Or.inr ?_
        calc 4 * (4 ^ (e.step call).mildTicks calls *
                ((e.step call).run calls).capHigh.bps.place)
            ≤ 4 * (3 ^ (e.step call).mildTicks calls * (e.step call).capHigh.bps.place) :=
              mul_le_mul_of_nonneg_left hrest (by decide)
          _ = 3 ^ (e.step call).mildTicks calls * (4 * (e.step call).capHigh.bps.place) := by ring
          _ ≤ 3 ^ (e.step call).mildTicks calls * (3 * e.capHigh.bps.place) :=
              mul_le_mul_of_nonneg_left hquarter hthree
          _ = 3 * (3 ^ (e.step call).mildTicks calls * e.capHigh.bps.place) := by ring

/-- In three ticks for each factor of two, three quarters make up for it. -/
theorem three_pow_mul_two_pow_le {n k : Nat} (h : 3 * k ≤ n) : 3 ^ n * 2 ^ k ≤ 4 ^ n := by
  obtain ⟨d, rfl⟩ := Nat.exists_eq_add_of_le h
  calc 3 ^ (3 * k + d) * 2 ^ k = (3 ^ 3) ^ k * 3 ^ d * 2 ^ k := by rw [pow_add, pow_mul]
    _ = (3 ^ 3 * 2) ^ k * 3 ^ d := by rw [mul_pow, Nat.mul_right_comm]
    _ ≤ (4 ^ 3) ^ k * 4 ^ d :=
      Nat.mul_le_mul (Nat.pow_le_pow_left (by decide) k) (Nat.pow_le_pow_left (by decide) d)
    _ = 4 ^ (3 * k + d) := by rw [← pow_mul, ← pow_add]

/-- The ceiling in terms of the least cap. -/
theorem ceiling_lt (ceiling : Bitrate) :
    ceiling.bps.place <
      2 ^ ((ceiling.bps.place / leastCap.bps.place).toNat.log2 + 1) * leastCap.bps.place := by
  have hpos : 0 < leastCap.bps.place := by
    have := leastCap_large
    have := Binary64.unit_pos
    omega
  have hlog : (ceiling.bps.place / leastCap.bps.place).toNat <
      2 ^ ((ceiling.bps.place / leastCap.bps.place).toNat.log2 + 1) := Nat.lt_log2_self
  generalize (ceiling.bps.place / leastCap.bps.place).toNat.log2 + 1 = k at hlog
  have hquotient : ceiling.bps.place / leastCap.bps.place + 1 ≤ 2 ^ k := by
    have : ((ceiling.bps.place / leastCap.bps.place).toNat : Int) < 2 ^ k := by exact_mod_cast hlog
    omega
  calc ceiling.bps.place < (ceiling.bps.place / leastCap.bps.place + 1) * leastCap.bps.place :=
        Int.lt_ediv_add_one_mul_self _ hpos
    _ ≤ 2 ^ k * leastCap.bps.place := mul_le_mul_of_nonneg_right hquotient hpos.le

theorem IsBounded.eq_least_of_rank (h : e.IsBounded)
    (hle : e.capHigh.bps.rank ≤ (min leastCap e.config.ceilings.high).bps.rank) :
    e.capHigh = min leastCap e.config.ceilings.high :=
  congrArg Bitrate.mk (Binary64.rank_injective h.ne_nan (Binary64.min_ne_nan leastCap_ne_nan)
    (le_antisymm hle h.least))

/-- A cap that is not above the least cap is the least cap. -/
theorem IsBounded.eq_least (h : e.IsBounded)
    (hle : e.capHigh.bps.place ≤ (min leastCap e.config.ceilings.high).bps.place) :
    e.capHigh = min leastCap e.config.ceilings.high := by
  refine h.eq_least_of_rank ?_
  have hleast := h.least
  rcases Bitrate.min_choice leastCap_ne_nan h.ceiling_ne_nan with heq | heq
  · -- The least cap is above zero, where places and ranks are the same.
    have hnonneg := leastCap_isWhole.rank_nonneg
    rw [heq] at hle hleast ⊢
    rw [leastCap_isWhole.place_eq_rank, Binary64.place_eq_of_rank] at hle
    split at hle <;> omega
  · rw [heq]
    exact h.most

/-- After enough congested ticks that are not severe, the cap is the least one. -/
theorem IsBounded.run_eq_least (h : e.IsBounded) {calls : List Call} (hcalls : e.StaysCapped calls)
    (hticks : ticksToLeast e.config.ceilings.high ≤ e.mildTicks calls) :
    (e.run calls).capHigh = min leastCap e.config.ceilings.high := by
  have hafter := h.run calls
  have hconfig : (e.run calls).config = e.config := run_config e calls
  rw [← hconfig]
  refine hafter.eq_least ?_
  rw [hconfig]
  refine (h.run_fall hcalls).elim id fun hfall => ?_
  generalize e.mildTicks calls = n at hfall hticks
  have hmost := Binary64.place_le_of_rank_le h.most
  have hlt := ceiling_lt e.config.ceilings.high
  unfold ticksToLeast at hticks
  generalize (e.config.ceilings.high.bps.place / leastCap.bps.place).toNat.log2 + 1 = k
    at hlt hticks
  have hpow : (3 ^ n * 2 ^ k : Int) ≤ 4 ^ n := by exact_mod_cast three_pow_mul_two_pow_le hticks
  have hleast : 0 ≤ leastCap.bps.place := by
    have := leastCap_large
    omega
  have hbelow : (e.run calls).capHigh.bps.place < leastCap.bps.place := by
    have hfour : (0 : Int) < 4 ^ n := by positivity
    refine lt_of_mul_lt_mul_left ?_ hfour.le
    calc 4 ^ n * (e.run calls).capHigh.bps.place ≤ 3 ^ n * e.capHigh.bps.place := hfall
      _ ≤ 3 ^ n * e.config.ceilings.high.bps.place :=
        mul_le_mul_of_nonneg_left hmost (by positivity)
      _ < 3 ^ n * (2 ^ k * leastCap.bps.place) := mul_lt_mul_of_pos_left hlt (by positivity)
      _ = 3 ^ n * 2 ^ k * leastCap.bps.place := by ring
      _ ≤ 4 ^ n * leastCap.bps.place := mul_le_mul_of_nonneg_right hpow hleast
  have hceiling : (e.run calls).capHigh.bps.place ≤ e.config.ceilings.high.bps.place :=
    hconfig ▸ Binary64.place_le_of_rank_le hafter.most
  rw [Bitrate.bps_min, Binary64.place_min leastCap_ne_nan h.ceiling_ne_nan]
  exact le_min hbelow.le hceiling

/-! ### In terms of the rates -/

theorem IsBounded.le_and_le (h : e.IsBounded) :
    min leastCap e.config.ceilings.high ≤ e.capHigh ∧ e.capHigh ≤ e.config.ceilings.high :=
  ⟨Bitrate.le_of_rank (Binary64.min_ne_nan leastCap_ne_nan) h.ne_nan h.least,
    Bitrate.le_of_rank h.ne_nan h.ceiling_ne_nan h.most⟩

theorem IsBounded.run_le_of_staysCapped (h : e.IsBounded) {calls : List Call}
    (hcalls : e.StaysCapped calls) : (e.run calls).capHigh ≤ e.capHigh :=
  Bitrate.le_of_rank (h.run calls).ne_nan h.ne_nan (h.run_le hcalls)

theorem IsBounded.tick_lt_of_mild (h : e.IsBounded) {t : Tick}
    (hcongested : (e.assessed t.sample).congested = true)
    (hmild : (e.assessed t.sample).severe = false) (hcapped : e.capped = true)
    (habove : min leastCap e.config.ceilings.high < e.capHigh) :
    (e.tick t).1.capHigh < e.capHigh := by
  have hmin : (min leastCap e.config.ceilings.high).bps ≠ .nan :=
    Binary64.min_ne_nan leastCap_ne_nan
  have hplace := (Binary64.lt_iff_place_lt hmin h.ne_nan).1 habove
  have hlarge := (h.large hplace).2
  have hunit := Binary64.unit_pos
  have hfall := h.loweredCap_of_mild hcapped hmild
  rw [← capHigh_of_congested hcongested] at hfall
  refine (Binary64.lt_iff_place_lt (h.step (.update t)).ne_nan h.ne_nan).2 ?_
  change (e.tick t).1.capHigh.bps.place < e.capHigh.bps.place
  omega

/-- The least cap is not left for another one. -/
theorem IsBounded.run_eq_of_eq_least (h : e.IsBounded)
    (hcap : e.capHigh = min leastCap e.config.ceilings.high) {calls : List Call}
    (hcalls : e.StaysCapped calls) :
    (e.run calls).capHigh = min leastCap e.config.ceilings.high := by
  have hrun := (h.run calls).eq_least_of_rank
  rw [run_config, ← hcap] at hrun
  rw [← hcap]
  exact hrun (h.run_le hcalls)

/-- The cap after any operations, under any finite ceiling and with any thresholds. It is between the
least cap and the ceiling. As long as the estimator is capped it does not rise, whatever is received
and however severe the congestion is. A congested tick that is not severe makes it smaller unless it
is the least one, and after a number of such ticks that depends on the ceiling alone it is the least
one, and remains so until there is no cap. -/
theorem run_backs_off_to_least (config : Config) (hceiling : config.ceilings.high.isValid = true)
    (calls : List Call) :
    let ceiling := config.ceilings.high
    let least := min leastCap ceiling
    let e := (ofConfig config).run calls
    (least ≤ e.capHigh ∧ e.capHigh ≤ ceiling) ∧
      (∀ more, e.StaysCapped more → (e.run more).capHigh ≤ e.capHigh) ∧
      (∀ t, (e.assessed t.sample).congested = true → (e.assessed t.sample).severe = false →
        e.capped = true → least < e.capHigh → (e.tick t).1.capHigh < e.capHigh) ∧
      (∀ more, e.StaysCapped more → ticksToLeast ceiling ≤ e.mildTicks more →
        (e.run more).capHigh = least) ∧
      (e.capHigh = least → ∀ more, e.StaysCapped more → (e.run more).capHigh = least) := by
  intro ceiling least e
  have h : e.IsBounded := (isBounded_ofConfig hceiling).run calls
  have hconfig : e.config = config := run_config _ _
  -- What holds of any bounded estimator is about its own settings, which are the given ones.
  have hleast : min leastCap e.config.ceilings.high = least := by rw [hconfig]
  have hhigh : e.config.ceilings.high = ceiling := by rw [hconfig]
  rw [← hleast, ← hhigh]
  exact ⟨h.le_and_le, fun _ hmore => h.run_le_of_staysCapped hmore,
    fun _ hcongested hmild hcapped => h.tick_lt_of_mild hcongested hmild hcapped,
    fun _ hmore => h.run_eq_least hmore, fun hcap _ hmore => h.run_eq_of_eq_least hcap hmore⟩

/-- Settings with a low ceiling. -/
def modest : Config := { ceilings := .ofHigh (.kilo 1500) }

/-- A tick with some loss. -/
def lossy : Tick := ⟨⟨10, .mega 4⟩, "", 0⟩

/-- An estimator that was capped for some loss. -/
def lossyStart : Estimator := (ofConfig modest).run [.update lossy]

/-- If the loss goes on, the cap falls from there, and after three ticks it is the least one. -/
theorem backs_off_under_steady_loss :
    modest.ceilings.high.isValid = true ∧
      lossyStart.StaysCapped (List.replicate 3 (.update lossy)) ∧
      (lossyStart.tick lossy).1.capHigh < lossyStart.capHigh ∧
      (lossyStart.run (List.replicate 3 (.update lossy))).capHigh =
        min leastCap modest.ceilings.high := by
  obtain ⟨hceiling, hcongested, hsevere, hcapped, habove⟩ :
      modest.ceilings.high.isValid = true ∧
        (lossyStart.assessed lossy.sample).congested = true ∧
        (lossyStart.assessed lossy.sample).severe = false ∧ lossyStart.capped = true ∧
        min leastCap modest.ceilings.high < lossyStart.capHigh := by
    decide +kernel
  obtain ⟨hstays, hticks⟩ : lossyStart.StaysCapped (List.replicate 3 (.update lossy)) ∧
      ticksToLeast modest.ceilings.high ≤
        lossyStart.mildTicks (List.replicate 3 (.update lossy)) := by
    decide +kernel
  have hrun : (ofConfig modest).run [.update lossy] = lossyStart := rfl
  have hspec := run_backs_off_to_least modest hceiling [.update lossy]
  dsimp only at hspec
  rw [hrun] at hspec
  obtain ⟨-, -, hfall, hleast, -⟩ := hspec
  exact ⟨hceiling, hstays, hfall lossy hcongested hsevere hcapped habove, hleast _ hstays hticks⟩

end Simulcast.Estimator
