import Simulcast.Proofs.Watchdog.Schedule

/-!
# How long the low layer stays off

A rescue gives up the low layer for ten ticks. That bound is for a rescue alone: another rescue that
comes before the low layer is back starts the count anew, and a stall that clears for a tick now and
then has a rescue every few ticks. So the low layer is back within ten ticks from a rescue exactly
if bandwidth is in plenty in one of them or no other rescue is among them, and rescues that are at
most nine ticks apart keep it off for as long as they come.

## Main definitions

* `Watchdog.AmpleAt` — bandwidth in plenty in a tick
* `Watchdog.flicker` — a stall that clears in every fourth tick

## Main results

* `Watchdog.low_returns_within_ten_iff` — when ten ticks are enough
* `Watchdog.rescue_of_lowDisabled` — there is always a rescue that is not long ago
* `Watchdog.staysOff_of_rescues` — rescues that are close together keep the low layer off
* `Watchdog.staysOff_flicker` — so no number of ticks is enough
-/

namespace Simulcast.Watchdog

variable {ceilings : Caps} {start : Watchdog} {ticks : List Tick} {n r i : Nat}

/-- There is bandwidth in plenty in tick `i`. -/
def AmpleAt (ticks : List Tick) (i : Nat) : Prop :=
  ∃ t, (ticks.take i).getLast? = some t ∧ t.IsAmple

theorem ampleAt_succ_iff (h : n < ticks.length) : AmpleAt ticks (n + 1) ↔ ticks[n].IsAmple := by
  rw [AmpleAt, ← List.take_append_getElem h, List.getLast?_concat]
  exact ⟨fun ⟨_, ht, hample⟩ => Option.some.inj ht ▸ hample, fun hample => ⟨_, rfl, hample⟩⟩

/-- `restoreLow_mem_kinds_iff` for any tick at all. -/
theorem restoreLow_at_iff (hi : i ≤ ticks.length) :
    .restoreLow ∈ (ofCeilings ceilings).kinds (ticks.take i) ↔
      ∃ r, LastRescue (ofCeilings ceilings) ticks i r ∧
        StaysOff (ofCeilings ceilings) ticks r i ∧ (AmpleAt ticks i ∨ i = r + 9) := by
  cases i with
  | zero =>
    refine iff_of_false (fun h => by cases h) ?_
    rintro ⟨r, hlast, -⟩
    exact Nat.lt_irrefl 0 hlast.pos
  | succ n => rw [restoreLow_mem_kinds_iff ceilings hi, ampleAt_succ_iff hi]

/-- After a rescue there is a last one. -/
theorem exists_lastRescue (hrescue : .rescue ∈ start.kinds (ticks.take r)) (hi : r ≤ i) :
    ∃ q, r ≤ q ∧ LastRescue start ticks i q := by
  induction i, hi using Nat.le_induction with
  | base => exact ⟨r, le_rfl, le_rfl, hrescue, fun j hr hj => absurd hj (Nat.not_le.2 hr)⟩
  | succ i hi ih =>
    by_cases hnow : .rescue ∈ start.kinds (ticks.take (i + 1))
    · exact ⟨i + 1, Nat.le_succ_of_le hi, lastRescue_succ_iff.2 (Or.inl ⟨hnow, rfl⟩)⟩
    · obtain ⟨q, hq, hlast⟩ := ih
      exact ⟨q, hq, lastRescue_succ_iff.2 (Or.inr ⟨hnow, hlast⟩)⟩

theorem LastRescue.le_of_rescue {q : Nat} (h : LastRescue start ticks i q)
    (hrescue : .rescue ∈ start.kinds (ticks.take r)) (hr : r ≤ i) : r ≤ q :=
  Nat.le_of_not_lt fun hlt => h.last r hlt hr hrescue

/-- Once the low layer is due it has come back, in that tick or before. -/
theorem exists_restoreLow_of_due (hrescue : .rescue ∈ (ofCeilings ceilings).kinds (ticks.take r))
    (hr : r ≤ i) (hi : i ≤ ticks.length)
    (hdue : AmpleAt ticks i ∨ ∀ q, LastRescue (ofCeilings ceilings) ticks i q → i = q + 9) :
    ∃ j, r ≤ j ∧ j ≤ i ∧ .restoreLow ∈ (ofCeilings ceilings).kinds (ticks.take j) := by
  by_contra hnot
  push Not at hnot
  obtain ⟨q, hq, hlast⟩ := exists_lastRescue hrescue hr
  refine hnot i hr le_rfl ((restoreLow_at_iff hi).2 ⟨q, hlast, ?_, ?_⟩)
  · exact fun j hj hji => hnot j (hq.trans hj) hji.le
  · exact hdue.imp_right fun h => h q hlast

/-- Rescues that are at most nine ticks apart keep the low layer off. -/
theorem staysOff_of_rescues (hn : n ≤ ticks.length + 1)
    (hrescue : .rescue ∈ (ofCeilings ceilings).kinds (ticks.take r))
    (hample : ∀ i, r ≤ i → i < n → ¬ AmpleAt ticks i)
    (hagain : ∀ i, r ≤ i → i + 9 < n →
      ∃ j, i < j ∧ j ≤ i + 9 ∧ .rescue ∈ (ofCeilings ceilings).kinds (ticks.take j)) :
    StaysOff (ofCeilings ceilings) ticks r n := by
  intro i hr hi hback
  obtain ⟨q, hlast, -, hwhen⟩ := (restoreLow_at_iff (by omega)).1 hback
  rcases hwhen with hwhen | rfl
  · exact hample i hr hi hwhen
  · -- Ten ticks have passed since the last rescue, but then it was not the last one.
    obtain ⟨j, hj, hle, hj'⟩ := hagain q (hlast.le_of_rescue hrescue hr) hi
    exact hlast.last j hj hle hj'

/-- The low layer is given up in each of some ticks from a rescue on exactly if it does not come back
in any of them. -/
theorem lowDisabled_iff_staysOff (hn : n ≤ ticks.length + 1)
    (hrescue : .rescue ∈ (ofCeilings ceilings).kinds (ticks.take r)) :
    (∀ i, r ≤ i → i < n → ((ofCeilings ceilings).follow (ticks.take i)).lowDisabled = true) ↔
      StaysOff (ofCeilings ceilings) ticks r n := by
  constructor
  · intro hoff i hr hi hback
    obtain ⟨q, hlast, hstays⟩ := (follow_lowDisabled ceilings (by omega)).1.1 (hoff i hr hi)
    exact hstays i hlast.le i.lt_succ_self hback
  · intro hstays i hr hi
    obtain ⟨q, hq, hlast⟩ := exists_lastRescue hrescue hr
    refine (follow_lowDisabled ceilings (by omega)).1.2 ⟨q, hlast, fun j hj hji => ?_⟩
    exact hstays j (hq.trans hj) (by omega)

/-- The low layer is given up only in a rescue and in the eight ticks after it. -/
theorem rescue_of_lowDisabled (hn : n ≤ ticks.length)
    (hlow : ((ofCeilings ceilings).follow (ticks.take n)).lowDisabled = true) :
    ∃ q, .rescue ∈ (ofCeilings ceilings).kinds (ticks.take q) ∧ q ≤ n ∧ n < q + 9 := by
  obtain ⟨hiff, hcount⟩ := follow_lowDisabled ceilings hn
  obtain ⟨q, hoff⟩ := hiff.1 hlow
  have hticks := hcount q hoff
  have hlt : ((ofCeilings ceilings).follow (ticks.take n)).restoreTicks < 10 :=
    (counts_follow ceilings (ticks.take n)).restore_lt
  exact ⟨q, hoff.1.rescue, hoff.1.le, by omega⟩

/-- From a rescue on, the low layer comes back within ten ticks, the tick of the rescue counted,
exactly if bandwidth is in plenty in one of them or there is no other rescue among them. Otherwise it
is given up in all of them. -/
theorem low_returns_within_ten_iff (ceilings : Caps) (ticks : List Tick) (r : Nat)
    (hrescue : .rescue ∈ (ofCeilings ceilings).kinds (ticks.take r))
    (hlength : r + 9 ≤ ticks.length) :
    let start := ofCeilings ceilings
    ((∃ i, r ≤ i ∧ i ≤ r + 9 ∧ .restoreLow ∈ start.kinds (ticks.take i)) ↔
        (∃ i, r ≤ i ∧ i ≤ r + 9 ∧ AmpleAt ticks i) ∨
          ∀ i, r < i → i ≤ r + 9 → .rescue ∉ start.kinds (ticks.take i)) ∧
      ((∃ i, r ≤ i ∧ i ≤ r + 9 ∧ .restoreLow ∈ start.kinds (ticks.take i)) ↔
        ∃ i, r ≤ i ∧ i ≤ r + 9 ∧ (start.follow (ticks.take i)).lowDisabled = false) := by
  intro start
  constructor
  · constructor
    · rintro ⟨i, hr, hi, hmem⟩
      obtain ⟨q, hlast, -, hample | rfl⟩ := (restoreLow_at_iff (hi.trans hlength)).1 hmem
      · exact Or.inl ⟨i, hr, hi, hample⟩
      · have hq : q = r := le_antisymm (by omega) (hlast.le_of_rescue hrescue hr)
        exact Or.inr fun j hj hle => hlast.last j (hq ▸ hj) (hq ▸ hle)
    · rintro (⟨i, hr, hi, hample⟩ | halone)
      · obtain ⟨j, hj, hji, hback⟩ :=
          exists_restoreLow_of_due hrescue hr (hi.trans hlength) (Or.inl hample)
        exact ⟨j, hj, hji.trans hi, hback⟩
      · refine exists_restoreLow_of_due hrescue (Nat.le_add_right r 9) hlength (Or.inr ?_)
        intro q hlast
        -- The last rescue is the one at `r`, since it was alone.
        rcases Nat.lt_or_eq_of_le (hlast.le_of_rescue hrescue (Nat.le_add_right r 9)) with hlt | rfl
        · exact absurd hlast.rescue (halone q hlt hlast.le)
        · rfl
  · rw [← not_iff_not]
    push Not
    have hiff := lowDisabled_iff_staysOff (n := r + 10) (by omega) hrescue
    simp only [Nat.lt_succ_iff, StaysOff, ne_eq, Bool.not_eq_false] at hiff ⊢
    exact hiff.symm

/-! ### A stall -/

/-- No frames of the high layer for lack of bandwidth. -/
def stalled : Tick :=
  ⟨⟨some (.kilo 2500), .kilo 2500,
    [⟨some Layer.high.rid, 0, .bandwidth⟩, ⟨some Layer.low.rid, 15, .none⟩]⟩, none⟩

/-- Every layer has frames. -/
def healthy : Tick :=
  ⟨⟨some (.kilo 2500), .kilo 2500,
    [⟨some Layer.high.rid, 30, .none⟩, ⟨some Layer.low.rid, 15, .none⟩]⟩, none⟩

/-- Neither of the two ticks has bandwidth in plenty. -/
theorem stalled_healthy :
    (stalled.IsPaused ∧ ¬ stalled.IsAmple) ∧ ¬ healthy.IsPaused ∧ ¬ healthy.IsAmple := by
  decide +kernel

theorem streak_stalled (n : Nat) : streak Tick.IsPaused (List.replicate n stalled) = n := by
  induction n with
  | zero => rfl
  | succ n ih =>
    rw [List.replicate_succ', streak_append_singleton, if_pos stalled_healthy.1.1, ih]

/-- A stall that does not clear is one with a single rescue, and the low layer is back in time. -/
theorem low_returns_in_steady_stall :
    let start := ofCeilings ({} : Config).ceilings
    let ticks := List.replicate 12 stalled
    .rescue ∈ start.kinds (ticks.take 3) ∧ 3 + 9 ≤ ticks.length ∧
      ∃ i, 3 ≤ i ∧ i ≤ 3 + 9 ∧ .restoreLow ∈ start.kinds (ticks.take i) := by
  intro start ticks
  have hrescues : ∀ i ≤ 12, .rescue ∈ start.kinds (ticks.take i) ↔ i % 15 = 3 := by
    intro i hi
    rw [List.take_replicate, Nat.min_eq_left hi, (rescues_mem_kinds_iff _ _).1, streak_stalled]
  have hrescue : .rescue ∈ start.kinds (ticks.take 3) := (hrescues 3 (by decide)).2 rfl
  have halone : ∀ i, 3 < i → i ≤ 3 + 9 → .rescue ∉ start.kinds (ticks.take i) := by
    intro i hi hle
    rw [hrescues i hle]
    omega
  exact ⟨hrescue, le_rfl,
    (low_returns_within_ten_iff ({} : Config).ceilings ticks 3 hrescue le_rfl).1.2 (Or.inr halone)⟩

/-! ### A stall that flickers -/

/-- Ticks of a stall that clears in every fourth of them. -/
def flicker (n : Nat) : List Tick :=
  (List.range n).map fun i => if i % 4 = 3 then healthy else stalled

theorem length_flicker (n : Nat) : (flicker n).length = n := by
  rw [flicker, List.length_map, List.length_range]

theorem take_flicker (h : i ≤ n) : (flicker n).take i = flicker i := by
  rw [flicker, ← List.map_take, List.take_range, Nat.min_eq_left h, flicker]

theorem streak_flicker (n : Nat) : streak Tick.IsPaused (flicker n) = n % 4 := by
  induction n with
  | zero => rfl
  | succ n ih =>
    have hsucc : flicker (n + 1) = flicker n ++ [if n % 4 = 3 then healthy else stalled] := by
      rw [flicker, List.range_succ, List.map_append]
      rfl
    rw [hsucc, streak_append_singleton, ih]
    by_cases h : n % 4 = 3
    · rw [if_pos h, if_neg stalled_healthy.2.1]
      omega
    · rw [if_neg h, if_pos stalled_healthy.1.1]
      omega

theorem rescue_mem_flicker_iff (n : Nat) :
    .rescue ∈ (ofCeilings ceilings).kinds (flicker n) ↔ n % 4 = 3 := by
  rw [(rescues_mem_kinds_iff ceilings (flicker n)).1, streak_flicker]
  omega

theorem not_ampleAt_flicker (n i : Nat) : ¬ AmpleAt (flicker n) i := by
  rintro ⟨t, ht, hample⟩
  have hmem : t ∈ flicker n := List.mem_of_mem_take (List.mem_of_getLast? ht)
  obtain ⟨j, -, rfl⟩ := List.mem_map.1 hmem
  obtain ⟨⟨-, hstalled⟩, -, hhealthy⟩ := stalled_healthy
  by_cases h : j % 4 = 3
  · exact hhealthy (by simpa [h] using hample)
  · exact hstalled (by simpa [h] using hample)

/-- However long the stall flickers, the low layer does not come back. -/
theorem staysOff_flicker (ceilings : Caps) (n : Nat) :
    StaysOff (ofCeilings ceilings) (flicker n) 3 (n + 1) := by
  rcases Nat.lt_or_ge n 3 with hlt | hge
  · exact fun i hr hi => absurd hi (by omega)
  refine staysOff_of_rescues (by rw [length_flicker]) ?_ (fun i _ _ => not_ampleAt_flicker n i) ?_
  · rw [take_flicker hge, rescue_mem_flicker_iff]
  · intro i hi hle
    -- One of the next four ticks has a rescue.
    refine ⟨i + 4 - (i + 1) % 4, by omega, by omega, ?_⟩
    rw [take_flicker (by omega), rescue_mem_flicker_iff]
    omega

/-- The low layer is given up in the third tick, and in the tenth from there, the twelfth of all, it has
not come back. -/
theorem flicker_outlasts_ten_ticks :
    let start := ofCeilings ({} : Config).ceilings
    (start.follow ((flicker 12).take 2)).lowDisabled = false ∧
      .rescue ∈ start.kinds ((flicker 12).take 3) ∧
      ∀ i, 3 ≤ i → i ≤ 3 + 9 →
        .restoreLow ∉ start.kinds ((flicker 12).take i) ∧
          (start.follow ((flicker 12).take i)).lowDisabled = true := by
  intro start
  have hrescue : .rescue ∈ start.kinds ((flicker 12).take 3) := by
    rw [take_flicker (by decide), rescue_mem_flicker_iff]
  have hoff := staysOff_flicker ({} : Config).ceilings 12
  refine ⟨by decide +kernel, hrescue, fun i hi hle => ⟨hoff i hi (Nat.lt_succ_of_le hle), ?_⟩⟩
  exact (lowDisabled_iff_staysOff le_rfl hrescue).2 hoff i hi (Nat.lt_succ_of_le hle)

end Simulcast.Watchdog
