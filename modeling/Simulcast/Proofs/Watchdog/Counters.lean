import Mathlib.Logic.Basic
import Simulcast.Watchdog.Detector

/-!
# What a watchdog counts

A watchdog counts ticks with the high layer paused and, after a rescue, ticks until the low layer
comes back. The two counts belong together: a rescue comes with the third paused tick and starts the
other count in that same tick, so while the pause lasts one count is two behind the other. The low
layer is back after ten ticks, which is the twelfth paused tick at the latest. So a hard rescue,
which takes fifteen of them, never meets a low layer that is given up.

## Main definitions

* `Watchdog.Counts` — how the counts belong together

## Main results

* `Watchdog.watchHigh_cases`, `Watchdog.watchLow_cases` — what the watches can do
* `Watchdog.Counts.step` — what holds of the counts between any two ticks
* `Watchdog.Counts.step_cases` — the actions of a tick, and what becomes of the low layer
-/

namespace Simulcast.Watchdog

variable {w : Watchdog}

/-! ### The three watches -/

/-- A kick comes with the last of the ticks that are counted for it. -/
theorem watchEstimate_cases (w : Watchdog) (s : OutboundSample) :
    (w.kicked = false ∧ isStarved s = true ∧ ticksToKick ≤ w.starvedTicks + 1 ∧
        w.watchEstimate s =
          ({ w with starvedTicks := w.starvedTicks + 1, kicked := true }, [.kick])) ∨
      (w.kicked = false ∧ isStarved s = true ∧ w.starvedTicks + 1 < ticksToKick ∧
        w.watchEstimate s = ({ w with starvedTicks := w.starvedTicks + 1 }, [])) ∨
      ((w.kicked = true ∨ isStarved s = false) ∧
        w.watchEstimate s = ({ w with starvedTicks := 0 }, [])) := by
  unfold watchEstimate
  cases hkicked : w.kicked with
  | true => exact Or.inr (Or.inr ⟨Or.inl rfl, by simp⟩)
  | false =>
    cases hstarved : isStarved s with
    | false => exact Or.inr (Or.inr ⟨Or.inr rfl, by simp⟩)
    | true =>
      by_cases hticks : ticksToKick ≤ w.starvedTicks + 1
      · exact Or.inl ⟨rfl, rfl, hticks, by simp [hticks]⟩
      · exact Or.inr (Or.inl ⟨rfl, rfl, Nat.lt_of_not_le hticks, by simp [hticks]⟩)

/-- Pausing goes on or ends, and it leads to a rescue, to a hard rescue or to nothing yet. -/
theorem watchHigh_cases (w : Watchdog) (s : OutboundSample) :
    (isHighPaused s.layers = true ∧ w.pausedTicks + 1 = ticksToRescue ∧
        w.watchHigh s =
          ({ w with pausedTicks := ticksToRescue, lowDisabled := true, restoreTicks := 0 },
            [.rescue])) ∨
      (isHighPaused s.layers = true ∧ w.pausedTicks + 1 = ticksToHardRescue ∧
        w.watchHigh s = ({ w with pausedTicks := 0 }, [.hardRescue])) ∨
      (isHighPaused s.layers = true ∧ w.pausedTicks + 1 ≠ ticksToRescue ∧
        w.pausedTicks + 1 ≠ ticksToHardRescue ∧
        w.watchHigh s = ({ w with pausedTicks := w.pausedTicks + 1 }, [])) ∨
      (isHighPaused s.layers = false ∧ w.watchHigh s = ({ w with pausedTicks := 0 }, [])) := by
  unfold watchHigh
  cases hpaused : isHighPaused s.layers with
  | false => exact Or.inr (Or.inr (Or.inr ⟨rfl, rfl⟩))
  | true =>
    by_cases hrescue : w.pausedTicks + 1 = ticksToRescue
    · exact Or.inl ⟨rfl, hrescue, by simp [hrescue]⟩
    · by_cases hhard : w.pausedTicks + 1 = ticksToHardRescue
      · exact Or.inr (Or.inl ⟨rfl, hhard, by simp [hhard, ticksToRescue, ticksToHardRescue]⟩)
      · exact Or.inr (Or.inr (Or.inl ⟨rfl, hrescue, hhard, by simp [hrescue, hhard]⟩))

/-- A low layer that is given up comes back, or another tick is counted. -/
theorem watchLow_cases (w : Watchdog) (s : OutboundSample) :
    (w.lowDisabled = false ∧ w.watchLow s = (w, [])) ∨
      (w.lowDisabled = true ∧ (isAmple s = true ∨ ticksToRestore ≤ w.restoreTicks + 1) ∧
        w.watchLow s = ({ w with lowDisabled := false, restoreTicks := 0 }, [.restoreLow])) ∨
      (w.lowDisabled = true ∧ isAmple s = false ∧ w.restoreTicks + 1 < ticksToRestore ∧
        w.watchLow s = ({ w with restoreTicks := w.restoreTicks + 1 }, [])) := by
  unfold watchLow
  cases hlow : w.lowDisabled with
  | false => exact Or.inl ⟨rfl, rfl⟩
  | true =>
    cases hample : isAmple s with
    | true => exact Or.inr (Or.inl ⟨rfl, Or.inl rfl, by simp⟩)
    | false =>
      by_cases hticks : ticksToRestore ≤ w.restoreTicks + 1
      · exact Or.inr (Or.inl ⟨rfl, Or.inr hticks, by simp [hticks]⟩)
      · exact Or.inr (Or.inr ⟨rfl, rfl, Nat.lt_of_not_le hticks, by simp [hticks]⟩)

/-- A step is the three watches one after the other, each with what the one before it left. -/
theorem step_eq (w : Watchdog) (s : OutboundSample) :
    w.step s =
      ((((w.watchEstimate s).1.watchHigh s).1.watchLow s).1,
        (w.watchEstimate s).2 ++ ((w.watchEstimate s).1.watchHigh s).2 ++
          (((w.watchEstimate s).1.watchHigh s).1.watchLow s).2) := rfl

theorem watchEstimate_frame (w : Watchdog) (s : OutboundSample) :
    (w.watchEstimate s).1.ceilings = w.ceilings ∧
      (w.watchEstimate s).1.pausedTicks = w.pausedTicks ∧
      (w.watchEstimate s).1.lowDisabled = w.lowDisabled ∧
      (w.watchEstimate s).1.restoreTicks = w.restoreTicks := by
  rcases watchEstimate_cases w s with ⟨-, -, -, heq⟩ | ⟨-, -, -, heq⟩ | ⟨-, heq⟩
  all_goals
    rw [heq]
    exact ⟨rfl, rfl, rfl, rfl⟩

theorem watchHigh_frame (w : Watchdog) (s : OutboundSample) :
    (w.watchHigh s).1.ceilings = w.ceilings ∧
      (w.watchHigh s).1.starvedTicks = w.starvedTicks ∧
      (w.watchHigh s).1.kicked = w.kicked := by
  rcases watchHigh_cases w s with
    ⟨-, -, heq⟩ | ⟨-, -, heq⟩ | ⟨-, -, -, heq⟩ | ⟨-, heq⟩
  all_goals
    rw [heq]
    exact ⟨rfl, rfl, rfl⟩

theorem watchLow_frame (w : Watchdog) (s : OutboundSample) :
    (w.watchLow s).1.ceilings = w.ceilings ∧
      (w.watchLow s).1.starvedTicks = w.starvedTicks ∧
      (w.watchLow s).1.kicked = w.kicked ∧
      (w.watchLow s).1.pausedTicks = w.pausedTicks := by
  rcases watchLow_cases w s with ⟨-, heq⟩ | ⟨-, -, heq⟩ | ⟨-, -, -, heq⟩
  all_goals
    rw [heq]
    exact ⟨rfl, rfl, rfl, rfl⟩

theorem step_ceilings (w : Watchdog) (s : OutboundSample) :
    (w.step s).1.ceilings = w.ceilings :=
  (watchLow_frame _ s).1.trans ((watchHigh_frame _ s).1.trans (watchEstimate_frame w s).1)

/-! ### How the counts belong together -/

/-- What holds of the counts. As long as the pause that led to a rescue lasts, the count for the low
layer is behind that of the pause by `lag`: by two between any two ticks, and by three within a
tick, when only the pause has been counted. -/
structure Counts (lag : Nat) (w : Watchdog) : Prop where
  starved_le : w.starvedTicks ≤ ticksToKick
  starved_lt : w.kicked = false → w.starvedTicks < ticksToKick
  paused_lt : w.pausedTicks < ticksToHardRescue
  restore_lt : w.restoreTicks < ticksToRestore
  restore_of_enabled : w.lowDisabled = false → w.restoreTicks = 0
  restore_of_paused : w.lowDisabled = true → ticksToRescue ≤ w.pausedTicks →
    w.restoreTicks + lag = w.pausedTicks

variable {lag : Nat}

theorem counts_ofCeilings (ceilings : Caps) : (ofCeilings ceilings).Counts lag where
  starved_le := Nat.zero_le ticksToKick
  starved_lt _ := Nat.succ_pos 4
  paused_lt := Nat.succ_pos 14
  restore_lt := Nat.succ_pos 9
  restore_of_enabled _ := rfl
  restore_of_paused h := by cases h

theorem Counts.watchEstimate (h : w.Counts lag) (s : OutboundSample) :
    (w.watchEstimate s).1.Counts lag := by
  rcases watchEstimate_cases w s with
    ⟨hkicked, -, -, heq⟩ | ⟨-, -, hticks, heq⟩ | ⟨-, heq⟩
  · rw [heq]
    exact { h with starved_le := h.starved_lt hkicked, starved_lt := by simp }
  · rw [heq]
    exact { h with starved_le := Nat.le_of_lt hticks, starved_lt := fun _ => hticks }
  · rw [heq]
    exact { h with starved_le := Nat.zero_le _, starved_lt := fun _ => Nat.succ_pos 4 }

/-- Counting the pause makes the other count fall behind. -/
theorem Counts.watchHigh (h : w.Counts 2) (s : OutboundSample) : (w.watchHigh s).1.Counts 3 := by
  rcases watchHigh_cases w s with
    ⟨-, -, heq⟩ | ⟨-, -, heq⟩ | ⟨-, hrescue, hhard, heq⟩ | ⟨-, heq⟩
  · -- A rescue: the count for the low layer is about to begin.
    rw [heq]
    exact { h with
      paused_lt := (by decide : ticksToRescue < ticksToHardRescue)
      restore_lt := Nat.succ_pos 9
      restore_of_enabled := by simp
      restore_of_paused := fun _ _ => rfl }
  · -- A hard rescue: the pause is counted anew.
    rw [heq]
    exact { h with
      paused_lt := Nat.succ_pos 14
      restore_of_paused := fun _ hpaused => absurd hpaused (by decide : ¬ ticksToRescue ≤ 0) }
  · -- The pause is one tick longer. It was long enough before, since this tick is not the third.
    rw [heq]
    refine { h with paused_lt := ?_, restore_of_paused := fun hlow hpaused => ?_ }
    · exact Nat.lt_of_le_of_ne h.paused_lt hhard
    · have hbefore : ticksToRescue ≤ w.pausedTicks := by
        change ticksToRescue ≤ w.pausedTicks + 1 at hpaused
        omega
      exact congrArg (· + 1) (h.restore_of_paused hlow hbefore)
  · rw [heq]
    exact { h with
      paused_lt := Nat.succ_pos 14
      restore_of_paused := fun _ hpaused => absurd hpaused (by decide : ¬ ticksToRescue ≤ 0) }

/-- Counting for the low layer as well makes up for it. -/
theorem Counts.watchLow (h : w.Counts 3) (s : OutboundSample) : (w.watchLow s).1.Counts 2 := by
  rcases watchLow_cases w s with ⟨henabled, heq⟩ | ⟨-, -, heq⟩ | ⟨hlow, -, hticks, heq⟩
  · -- There is nothing to count while the low layer is on.
    rw [heq]
    exact { h with restore_of_paused := fun hlow => by simp [henabled] at hlow }
  · rw [heq]
    exact { h with
      restore_lt := Nat.succ_pos 9
      restore_of_enabled := fun _ => rfl
      restore_of_paused := by simp }
  · -- The count for the low layer gains the tick that it was behind.
    rw [heq]
    refine { h with
      restore_lt := hticks
      restore_of_enabled := fun henabled => by simp [hlow] at henabled
      restore_of_paused := fun _ hpaused => ?_ }
    have hlag := h.restore_of_paused hlow hpaused
    change w.restoreTicks + 1 + 2 = w.pausedTicks
    omega

theorem Counts.step (h : w.Counts 2) (s : OutboundSample) : (w.step s).1.Counts 2 :=
  ((h.watchEstimate s).watchHigh s).watchLow s

/-! ### The low layer -/

/-- By the time of a hard rescue the low layer is back. -/
theorem Counts.enabled_of_paused (h : w.Counts 2)
    (hpaused : w.pausedTicks + 1 = ticksToHardRescue) : w.lowDisabled = false := by
  cases hlow : w.lowDisabled with
  | false => rfl
  | true =>
    -- The count for the low layer would have got to twelve.
    have hticks : w.pausedTicks = 14 := Nat.succ.inj hpaused
    have hlag := h.restore_of_paused hlow (by rw [hticks]; decide)
    have hrestore : w.restoreTicks < 10 := h.restore_lt
    omega

/-- Starved ticks have nothing to do with the low layer. -/
theorem watchEstimate_kinds (w : Watchdog) (s : OutboundSample) :
    (w.watchEstimate s).1.lowDisabled = w.lowDisabled ∧
      ∀ kind ∈ (w.watchEstimate s).2, kind = .kick := by
  rcases watchEstimate_cases w s with ⟨-, -, -, heq⟩ | ⟨-, -, -, heq⟩ | ⟨-, heq⟩
  · rw [heq]
    exact ⟨rfl, by simp⟩
  · rw [heq]
    exact ⟨rfl, by simp⟩
  · rw [heq]
    exact ⟨rfl, by simp⟩

theorem Counts.watchHigh_kinds (h : w.Counts 2) (s : OutboundSample) :
    ((w.watchHigh s).2 = [] ∧ (w.watchHigh s).1.lowDisabled = w.lowDisabled) ∨
      ((w.watchHigh s).2 = [.rescue] ∧ (w.watchHigh s).1.lowDisabled = true) ∨
      ((w.watchHigh s).2 = [.hardRescue] ∧ w.lowDisabled = false ∧
        (w.watchHigh s).1.lowDisabled = false) := by
  rcases watchHigh_cases w s with
    ⟨-, -, heq⟩ | ⟨-, hpaused, heq⟩ | ⟨-, -, -, heq⟩ | ⟨-, heq⟩
  · rw [heq]
    exact Or.inr (Or.inl ⟨rfl, rfl⟩)
  · have henabled := h.enabled_of_paused hpaused
    rw [heq]
    exact Or.inr (Or.inr ⟨rfl, henabled, henabled⟩)
  · rw [heq]
    exact Or.inl ⟨rfl, rfl⟩
  · rw [heq]
    exact Or.inl ⟨rfl, rfl⟩

theorem watchLow_kinds (w : Watchdog) (s : OutboundSample) :
    ((w.watchLow s).2 = [] ∧ (w.watchLow s).1.lowDisabled = w.lowDisabled) ∨
      ((w.watchLow s).2 = [.restoreLow] ∧ w.lowDisabled = true ∧
        (w.watchLow s).1.lowDisabled = false) := by
  rcases watchLow_cases w s with ⟨-, heq⟩ | ⟨hlow, -, heq⟩ | ⟨-, -, -, heq⟩
  · rw [heq]
    exact Or.inl ⟨rfl, rfl⟩
  · rw [heq]
    exact Or.inr ⟨rfl, hlow, rfl⟩
  · rw [heq]
    exact Or.inl ⟨rfl, rfl⟩

/-- After a possible kick, a tick gives up the low layer or brings it back, or does both, or
neither. There is no hard rescue while the low layer is given up. -/
theorem Counts.step_cases (h : w.Counts 2) (s : OutboundSample) :
    ∃ kicks kinds, (w.step s).2 = kicks ++ kinds ∧ (∀ kind ∈ kicks, kind = .kick) ∧
      ((kinds = [] ∧ (w.step s).1.lowDisabled = w.lowDisabled) ∨
        (kinds = [.rescue] ∧ (w.step s).1.lowDisabled = true) ∨
        (kinds = [.rescue, .restoreLow] ∧ (w.step s).1.lowDisabled = false) ∨
        (kinds = [.hardRescue] ∧ w.lowDisabled = false ∧ (w.step s).1.lowDisabled = false) ∨
        (kinds = [.restoreLow] ∧ w.lowDisabled = true ∧ (w.step s).1.lowDisabled = false)) := by
  have hcounts := h.watchEstimate s
  obtain ⟨hsame, hkicks⟩ := watchEstimate_kinds w s
  rw [step_eq, ← hsame]
  -- What is left are two watches in a row, the second of which sees what the first one did.
  generalize (w.watchEstimate s).1 = v at hcounts
  refine ⟨_, _, List.append_assoc .., hkicks, ?_⟩
  dsimp only
  rcases hcounts.watchHigh_kinds s with ⟨hhigh, hlow⟩ | ⟨hhigh, hlow⟩ | ⟨hhigh, henabled, hlow⟩
  · -- Nothing happened to the high layer, but the low layer may come back.
    rw [hhigh, ← hlow]
    rcases watchLow_kinds (v.watchHigh s).1 s with ⟨hkinds, hafter⟩ | ⟨hkinds, hbefore, hafter⟩
    · exact Or.inl ⟨by rw [hkinds, List.append_nil], hafter⟩
    · exact Or.inr (Or.inr (Or.inr (Or.inr ⟨by rw [hkinds, List.nil_append], hbefore, hafter⟩)))
  · -- With bandwidth in plenty a rescue is taken back at once.
    rw [hhigh]
    rcases watchLow_kinds (v.watchHigh s).1 s with ⟨hkinds, hafter⟩ | ⟨hkinds, -, hafter⟩
    · exact Or.inr (Or.inl ⟨by rw [hkinds, List.append_nil], hafter.trans hlow⟩)
    · exact Or.inr (Or.inr (Or.inl ⟨by rw [hkinds]; rfl, hafter⟩))
  · -- The low layer was on already, so there is nothing to bring back.
    rw [hhigh]
    rcases watchLow_kinds (v.watchHigh s).1 s with ⟨hkinds, hafter⟩ | ⟨-, hbefore, -⟩
    · refine Or.inr (Or.inr (Or.inr (Or.inl ⟨?_, henabled, hafter.trans hlow⟩)))
      rw [hkinds, List.append_nil]
    · simp [hlow] at hbefore

end Simulcast.Watchdog
