import Mathlib.Data.List.DropRight
import Simulcast.Proofs.Watchdog.Runs

/-!
# The schedule of a watchdog

A watchdog decides by a few counts. Here it is said without them when it acts, by the ticks since the
last reset alone. A kick comes once, with the first five starved ticks in a row. While the high layer
is paused there is a rescue and a hard rescue in every fifteen ticks. And the low layer comes back
ten ticks after the last rescue, the tick of the rescue counted, or earlier if bandwidth permits.

Each count is a function of the ticks, and this is shown tick by tick: `follow_starved` for the
kick, `follow_pausedTicks` for the rescues, `follow_lowDisabled` for the low layer.

## Main definitions

* `Watchdog.Tick.IsStarved`, `Watchdog.Tick.IsPaused`, `Watchdog.Tick.IsAmple` — what a tick shows
* `Watchdog.streak` — for how many ticks up to the last one something has been shown
* `Watchdog.LastRescue`, `Watchdog.StaysOff` — the last rescue, and no return of the low layer

## Main results

* `Watchdog.run_returns_on_schedule` — what is done in a tick, and when
-/

namespace Simulcast.Watchdog

open Simulcast.Action (Kind)

/-! ### What a tick shows -/

namespace Tick

/-- A low estimate and a low rate. -/
def IsStarved (t : Tick) : Prop :=
  ∃ estimate, t.sample.estimate = some estimate ∧ estimate < Bitrate.kilo 2000 ∧
    t.sample.sent < Bitrate.kilo 1000

/-- An estimate that has room for every layer. -/
def IsAmple (t : Tick) : Prop :=
  ∃ estimate, t.sample.estimate = some estimate ∧ Bitrate.kilo 10000 ≤ estimate

/-- The first layer with a rid of the high one, or else the first layer. -/
def top? (t : Tick) : Option LayerState :=
  (t.sample.layers.find? fun l =>
    l.rid.map Rid.text = some "f" ∨ l.rid.map Rid.text = some "single").or t.sample.layers.head?

/-- There is more than one layer, and the high one is without frames for lack of bandwidth. -/
def IsPaused (t : Tick) : Prop :=
  1 < t.sample.layers.length ∧
    ∃ top, t.top? = some top ∧ top.fps.same 0 = true ∧ top.limitation = .bandwidth

variable {t : Tick}

theorem isStarved_iff : t.IsStarved ↔ isStarved t.sample = true := by
  unfold IsStarved isStarved
  rw [Bool.and_eq_true, decide_eq_true_iff]
  cases t.sample.estimate with
  | none => simp
  | some estimate =>
    rw [decide_eq_true_iff]
    simp only [Option.some.injEq, exists_eq_left']
    rfl

theorem isAmple_iff : t.IsAmple ↔ isAmple t.sample = true := by
  unfold IsAmple isAmple
  cases t.sample.estimate with
  | none => simp
  | some estimate =>
    rw [decide_eq_true_iff]
    simp only [Option.some.injEq, exists_eq_left']
    rfl

theorem isHigh_eq (l : LayerState) :
    l.isHigh = decide (l.rid.map Rid.text = some "f" ∨ l.rid.map Rid.text = some "single") := by
  unfold LayerState.isHigh
  cases l.rid with
  | none => simp
  | some rid => simp [Bool.beq_eq_decide_eq]

theorem isPaused_iff : t.IsPaused ↔ isHighPaused t.sample.layers = true := by
  unfold IsPaused top? isHighPaused
  simp only [← isHigh_eq]
  rcases t.sample.layers with _ | ⟨first, _ | ⟨second, rest⟩⟩
  · simp
  · simp
  · dsimp only
    cases (first :: second :: rest).find? LayerState.isHigh with
    | none => simp [LayerState.isPaused]
    | some top => simp [LayerState.isPaused]

instance : DecidablePred IsStarved := fun _ => decidable_of_iff' _ isStarved_iff

instance : DecidablePred IsAmple := fun _ => decidable_of_iff' _ isAmple_iff

instance : DecidablePred IsPaused := fun _ => decidable_of_iff' _ isPaused_iff

end Tick

/-- For how many ticks in a row, up to the last one, `p` has held. -/
def streak (p : Tick → Prop) [DecidablePred p] (ticks : List Tick) : Nat :=
  (ticks.rtakeWhile fun t => p t).length

theorem streak_append_singleton (p : Tick → Prop) [DecidablePred p] (ticks : List Tick) (t : Tick) :
    streak p (ticks ++ [t]) = if p t then streak p ticks + 1 else 0 := by
  unfold streak
  split
  · next h =>
    rw [List.rtakeWhile_concat_pos _ _ _ (by simpa using h), List.length_append]
    rfl
  · next h => rw [List.rtakeWhile_concat_neg _ _ _ (by simpa using h), List.length_nil]

/-! ### What a step does to each of the counts -/

variable {w : Watchdog} {s : OutboundSample} {kind : Kind}

theorem watchEstimate_sublist (w : Watchdog) (s : OutboundSample) :
    (w.watchEstimate s).2.Sublist [.kick] := by
  rcases watchEstimate_cases w s with ⟨-, -, -, heq⟩ | ⟨-, -, -, heq⟩ | ⟨-, heq⟩ <;> simp [heq]

theorem watchHigh_sublist (w : Watchdog) (s : OutboundSample) :
    (w.watchHigh s).2.Sublist [.rescue] ∨ (w.watchHigh s).2.Sublist [.hardRescue] := by
  rcases watchHigh_cases w s with
    ⟨-, -, heq⟩ | ⟨-, -, heq⟩ | ⟨-, -, -, heq⟩ | ⟨-, heq⟩ <;> simp [heq]

theorem watchLow_sublist (w : Watchdog) (s : OutboundSample) :
    (w.watchLow s).2.Sublist [.restoreLow] := by
  rcases watchLow_cases w s with ⟨-, heq⟩ | ⟨-, -, heq⟩ | ⟨-, -, -, heq⟩ <;> simp [heq]

/-- The order of what is done in a tick. -/
theorem step_sublist (w : Watchdog) (s : OutboundSample) :
    (w.step s).2.Sublist [.kick, .rescue, .restoreLow] ∨
      (w.step s).2.Sublist [.kick, .hardRescue, .restoreLow] := by
  rw [step_eq]
  have hkick := watchEstimate_sublist w s
  have hlow := watchLow_sublist ((w.watchEstimate s).1.watchHigh s).1 s
  exact (watchHigh_sublist (w.watchEstimate s).1 s).imp
    (fun hhigh => (hkick.append hhigh).append hlow) (fun hhigh => (hkick.append hhigh).append hlow)

/-- Each of the watches has kinds of its own, so that the kind tells which of them acted. -/
theorem mem_step_iff :
    kind ∈ (w.step s).2 ↔
      match kind with
      | .kick => .kick ∈ (w.watchEstimate s).2
      | .rescue => .rescue ∈ ((w.watchEstimate s).1.watchHigh s).2
      | .hardRescue => .hardRescue ∈ ((w.watchEstimate s).1.watchHigh s).2
      | .restoreLow => .restoreLow ∈ (((w.watchEstimate s).1.watchHigh s).1.watchLow s).2 := by
  have hkick := (watchEstimate_sublist w s).subset
  have hhigh : ((w.watchEstimate s).1.watchHigh s).2 ⊆ [.rescue, .hardRescue] :=
    (watchHigh_sublist (w.watchEstimate s).1 s).elim
      (fun h => (h.trans (by simp)).subset) (fun h => (h.trans (by simp)).subset)
  have hlow := (watchLow_sublist ((w.watchEstimate s).1.watchHigh s).1 s).subset
  rw [step_eq, List.mem_append, List.mem_append]
  cases kind <;> grind

theorem kick_mem_step :
    .kick ∈ (w.step s).2 ↔
      w.kicked = false ∧ isStarved s = true ∧ ticksToKick ≤ w.starvedTicks + 1 := by
  rw [mem_step_iff]
  rcases watchEstimate_cases w s with
    ⟨hkicked, hstarved, hticks, heq⟩ | ⟨-, -, hticks, heq⟩ | ⟨hnot, heq⟩
  · simp [heq, hkicked, hstarved, hticks]
  · simp [heq, Nat.not_le.2 hticks]
  · rcases hnot with h | h <;> simp [heq, h]

/-- A kick stays remembered, and until then starved ticks are counted. -/
theorem step_starved (w : Watchdog) (s : OutboundSample) :
    ((w.step s).1.kicked = false ↔ w.kicked = false ∧ .kick ∉ (w.step s).2) ∧
      ((w.step s).1.kicked = false →
        (w.step s).1.starvedTicks = if isStarved s then w.starvedTicks + 1 else 0) := by
  have hframe : (w.step s).1.kicked = (w.watchEstimate s).1.kicked ∧
      (w.step s).1.starvedTicks = (w.watchEstimate s).1.starvedTicks := by
    obtain ⟨-, hticks, hkicked⟩ := watchHigh_frame (w.watchEstimate s).1 s
    obtain ⟨-, hticks', hkicked', -⟩ := watchLow_frame ((w.watchEstimate s).1.watchHigh s).1 s
    exact ⟨hkicked'.trans hkicked, hticks'.trans hticks⟩
  rw [kick_mem_step, hframe.1, hframe.2]
  rcases watchEstimate_cases w s with
    ⟨hkicked, hstarved, hticks, heq⟩ | ⟨hkicked, hstarved, hticks, heq⟩ | ⟨hnot, heq⟩
  · simp [heq, hkicked, hstarved, hticks]
  · simp [heq, hkicked, hstarved, Nat.not_le.2 hticks]
  · rcases hnot with h | h <;> simp [heq, h]

/-- A rescue or a hard rescue comes with the tick of a pause that it is due in. -/
theorem rescues_mem_step :
    (.rescue ∈ (w.step s).2 ↔
        isHighPaused s.layers = true ∧ w.pausedTicks + 1 = ticksToRescue) ∧
      (.hardRescue ∈ (w.step s).2 ↔
        isHighPaused s.layers = true ∧ w.pausedTicks + 1 = ticksToHardRescue) := by
  rw [mem_step_iff, mem_step_iff, ← (watchEstimate_frame w s).2.1]
  rcases watchHigh_cases (w.watchEstimate s).1 s with
    ⟨hpaused, hticks, heq⟩ | ⟨hpaused, hticks, heq⟩ | ⟨-, hrescue, hhard, heq⟩ | ⟨hpaused, heq⟩
  · simp [heq, hpaused, hticks, ticksToRescue, ticksToHardRescue]
  · simp [heq, hpaused, hticks, ticksToRescue, ticksToHardRescue]
  · simp [heq, hrescue, hhard]
  · simp [heq, hpaused]

/-- A hard rescue ends the count of a pause, so that counting is modulo the ticks it takes. -/
theorem step_pausedTicks (h : w.pausedTicks < ticksToHardRescue) :
    (w.step s).1.pausedTicks =
      if isHighPaused s.layers then (w.pausedTicks + 1) % ticksToHardRescue else 0 := by
  have hframe : (w.step s).1.pausedTicks = ((w.watchEstimate s).1.watchHigh s).1.pausedTicks :=
    (watchLow_frame _ s).2.2.2
  rw [← (watchEstimate_frame w s).2.1] at h ⊢
  rw [hframe]
  rcases watchHigh_cases (w.watchEstimate s).1 s with
    ⟨hpaused, hticks, heq⟩ | ⟨hpaused, hticks, heq⟩ | ⟨hpaused, -, hhard, heq⟩ | ⟨hpaused, heq⟩
  · simp [heq, hpaused, hticks, ticksToRescue, ticksToHardRescue]
  · simp [heq, hpaused, hticks]
  · rw [heq, if_pos hpaused, Nat.mod_eq_of_lt (Nat.lt_of_le_of_ne h hhard)]
  · simp [heq, hpaused]

/-- A rescue gives up the low layer and starts its count anew. -/
theorem watchHigh_low (w : Watchdog) (s : OutboundSample) :
    ((w.watchHigh s).1.lowDisabled = true ↔
        .rescue ∈ (w.watchHigh s).2 ∨ w.lowDisabled = true) ∧
      (w.watchHigh s).1.restoreTicks =
        if .rescue ∈ (w.watchHigh s).2 then 0 else w.restoreTicks := by
  rcases watchHigh_cases w s with
    ⟨-, -, heq⟩ | ⟨-, -, heq⟩ | ⟨-, -, -, heq⟩ | ⟨-, heq⟩ <;> simp [heq]

theorem watchLow_low (w : Watchdog) (s : OutboundSample) :
    (.restoreLow ∈ (w.watchLow s).2 ↔
        w.lowDisabled = true ∧ (isAmple s = true ∨ ticksToRestore ≤ w.restoreTicks + 1)) ∧
      ((w.watchLow s).1.lowDisabled = true ↔
        w.lowDisabled = true ∧ .restoreLow ∉ (w.watchLow s).2) ∧
      ((w.watchLow s).1.lowDisabled = true →
        (w.watchLow s).1.restoreTicks = w.restoreTicks + 1) := by
  rcases watchLow_cases w s with ⟨hlow, heq⟩ | ⟨hlow, hback, heq⟩ | ⟨hlow, hample, hticks, heq⟩
  · simp [heq, hlow]
  · simp [heq, hlow, hback]
  · simp [heq, hlow, hample, Nat.not_le.2 hticks]

/-- With a rescue the count is at one, since the tick of the rescue is counted. -/
theorem step_low (w : Watchdog) (s : OutboundSample) :
    (.restoreLow ∈ (w.step s).2 ↔
        (.rescue ∈ (w.step s).2 ∨ w.lowDisabled = true) ∧
          (isAmple s = true ∨
            ticksToRestore ≤ if .rescue ∈ (w.step s).2 then 1 else w.restoreTicks + 1)) ∧
      ((w.step s).1.lowDisabled = true ↔
        (.rescue ∈ (w.step s).2 ∨ w.lowDisabled = true) ∧ .restoreLow ∉ (w.step s).2) ∧
      ((w.step s).1.lowDisabled = true →
        (w.step s).1.restoreTicks =
          if .rescue ∈ (w.step s).2 then 1 else w.restoreTicks + 1) := by
  have hrescue : .rescue ∈ (w.step s).2 ↔ .rescue ∈ ((w.watchEstimate s).1.watchHigh s).2 :=
    mem_step_iff
  have hrestore : .restoreLow ∈ (w.step s).2 ↔
      .restoreLow ∈ (((w.watchEstimate s).1.watchHigh s).1.watchLow s).2 := mem_step_iff
  obtain ⟨-, -, hlow, hticks⟩ := watchEstimate_frame w s
  obtain ⟨hbetween, hcount⟩ := watchHigh_low (w.watchEstimate s).1 s
  obtain ⟨hback, hafter, hnext⟩ := watchLow_low ((w.watchEstimate s).1.watchHigh s).1 s
  have hsucc : ((w.watchEstimate s).1.watchHigh s).1.restoreTicks + 1 =
      if .rescue ∈ (w.step s).2 then 1 else w.restoreTicks + 1 := by
    simp only [hcount, hticks, hrescue]
    split <;> rfl
  rw [hsucc] at hback hnext
  rw [hlow, ← hrescue] at hbetween
  rw [hbetween, ← hrestore] at hback hafter
  exact ⟨hback, hafter, hnext⟩

/-! ### The counts as functions of the ticks -/

section History

variable {ceilings : Caps} {ticks : List Tick} {n : Nat}

theorem counts_follow (ceilings : Caps) (ticks : List Tick) :
    ((ofCeilings ceilings).follow ticks).Counts 2 :=
  (counts_ofCeilings ceilings).follow ticks

/-- A pause is counted modulo fifteen. -/
theorem follow_pausedTicks (ceilings : Caps) (ticks : List Tick) :
    ((ofCeilings ceilings).follow ticks).pausedTicks =
      streak Tick.IsPaused ticks % ticksToHardRescue := by
  induction ticks using List.reverseRecOn with
  | nil => rfl
  | append_singleton ticks t ih =>
    rw [follow_append_singleton, step_pausedTicks (counts_follow ceilings ticks).paused_lt, ih,
      streak_append_singleton]
    by_cases h : t.IsPaused
    · rw [if_pos (Tick.isPaused_iff.1 h), if_pos h, Nat.mod_add_mod]
    · rw [if_neg (mt Tick.isPaused_iff.2 h), if_neg h, Nat.zero_mod]

theorem rescues_mem_kinds_iff (ceilings : Caps) (ticks : List Tick) :
    (.rescue ∈ (ofCeilings ceilings).kinds ticks ↔ streak Tick.IsPaused ticks % 15 = 3) ∧
      (.hardRescue ∈ (ofCeilings ceilings).kinds ticks ↔
        0 < streak Tick.IsPaused ticks ∧ streak Tick.IsPaused ticks % 15 = 0) := by
  induction ticks using List.reverseRecOn with
  | nil => simp [kinds, streak]
  | append_singleton ticks t =>
    obtain ⟨hrescue, hhard⟩ := rescues_mem_step (w := (ofCeilings ceilings).follow ticks)
      (s := t.sample)
    rw [kinds_append_singleton, hrescue, hhard, follow_pausedTicks, streak_append_singleton,
      ← Tick.isPaused_iff]
    simp only [ticksToRescue, ticksToHardRescue]
    by_cases h : t.IsPaused
    · simp only [h, true_and, if_true]
      omega
    · simp [h]

theorem follow_take_succ (start : Watchdog) (h : n < ticks.length) :
    start.follow (ticks.take (n + 1)) = ((start.follow (ticks.take n)).step ticks[n].sample).1 := by
  rw [← List.take_append_getElem h, follow_append_singleton]

theorem kinds_take_succ (start : Watchdog) (h : n < ticks.length) :
    start.kinds (ticks.take (n + 1)) = ((start.follow (ticks.take n)).step ticks[n].sample).2 := by
  rw [← List.take_append_getElem h, kinds_append_singleton]

theorem streak_take_succ (p : Tick → Prop) [DecidablePred p] (h : n < ticks.length) :
    streak p (ticks.take (n + 1)) = if p ticks[n] then streak p (ticks.take n) + 1 else 0 := by
  rw [← List.take_append_getElem h, streak_append_singleton]

/-- Before a kick the starved ticks are all counted. -/
theorem kick_mem_kinds_of_counted (hn : n < ticks.length)
    (hcount : ((ofCeilings ceilings).follow (ticks.take n)).kicked = false →
      ((ofCeilings ceilings).follow (ticks.take n)).starvedTicks =
        streak Tick.IsStarved (ticks.take n)) :
    .kick ∈ (ofCeilings ceilings).kinds (ticks.take (n + 1)) ↔
      5 ≤ streak Tick.IsStarved (ticks.take (n + 1)) ∧
        ((ofCeilings ceilings).follow (ticks.take n)).kicked = false := by
  rw [kinds_take_succ _ hn, kick_mem_step, and_comm, streak_take_succ _ hn,
    ← Tick.isStarved_iff]
  refine and_congr_left fun h => ?_
  rw [hcount h]
  by_cases hstarved : ticks[n].IsStarved
  · simp [hstarved, ticksToKick]
  · simp [hstarved]

/-- As long as there was no kick, the starved ticks are all counted, and there were never five. -/
theorem follow_starved (ceilings : Caps) (hn : n ≤ ticks.length) :
    (((ofCeilings ceilings).follow (ticks.take n)).kicked = false ↔
        ∀ i < n + 1, streak Tick.IsStarved (ticks.take i) < 5) ∧
      (((ofCeilings ceilings).follow (ticks.take n)).kicked = false →
        ((ofCeilings ceilings).follow (ticks.take n)).starvedTicks =
          streak Tick.IsStarved (ticks.take n)) := by
  induction n with
  | zero => simp [follow, ofCeilings, streak]
  | succ n ih =>
    obtain ⟨hnever, hcount⟩ := ih (Nat.le_of_succ_le hn)
    obtain ⟨hkicked, hstarved⟩ :=
      step_starved ((ofCeilings ceilings).follow (ticks.take n)) ticks[n].sample
    rw [← kinds_take_succ _ hn, kick_mem_kinds_of_counted hn hcount, ← follow_take_succ _ hn]
      at hkicked
    rw [← follow_take_succ _ hn] at hstarved
    constructor
    · rw [hkicked, Nat.forall_lt_succ_right, ← hnever, not_and', Nat.not_le]
      exact and_congr_right fun h => by simp [h]
    · intro h
      rw [hstarved h, hcount (hkicked.1 h).1, streak_take_succ _ hn]
      simp only [Tick.isStarved_iff]

/-- There is a kick as soon as there have been five starved ticks in a row, and no second one. -/
theorem kick_mem_kinds_iff (ceilings : Caps) (hn : n < ticks.length) :
    .kick ∈ (ofCeilings ceilings).kinds (ticks.take (n + 1)) ↔
      5 ≤ streak Tick.IsStarved (ticks.take (n + 1)) ∧
        ∀ i < n + 1, streak Tick.IsStarved (ticks.take i) < 5 := by
  obtain ⟨hnever, hcount⟩ := follow_starved ceilings hn.le
  rw [kick_mem_kinds_of_counted hn hcount, hnever]

/-! ### The low layer -/

/-- Tick `r` is the last one up to tick `n` in which there is a rescue. -/
structure LastRescue (start : Watchdog) (ticks : List Tick) (n r : Nat) : Prop where
  le : r ≤ n
  rescue : .rescue ∈ start.kinds (ticks.take r)
  last : ∀ i, r < i → i ≤ n → .rescue ∉ start.kinds (ticks.take i)

/-- From tick `r` until before tick `n` the low layer does not come back. -/
def StaysOff (start : Watchdog) (ticks : List Tick) (r n : Nat) : Prop :=
  ∀ i, r ≤ i → i < n → .restoreLow ∉ start.kinds (ticks.take i)

variable {start : Watchdog} {r : Nat}

/-- Ticks are counted from one. -/
theorem LastRescue.pos (h : LastRescue start ticks n r) : 0 < n := by
  have hr : r ≠ 0 := by
    intro hr
    have hrescue := h.rescue
    rw [hr] at hrescue
    cases hrescue
  exact Nat.lt_of_lt_of_le (Nat.pos_of_ne_zero hr) h.le

theorem lastRescue_succ_iff :
    LastRescue start ticks (n + 1) r ↔
      (.rescue ∈ start.kinds (ticks.take (n + 1)) ∧ r = n + 1) ∨
        (.rescue ∉ start.kinds (ticks.take (n + 1)) ∧ LastRescue start ticks n r) := by
  constructor
  · intro h
    rcases Nat.lt_or_eq_of_le h.le with hlt | rfl
    · exact Or.inr ⟨h.last _ hlt le_rfl, Nat.le_of_lt_succ hlt, h.rescue,
        fun i hr hi => h.last i hr (Nat.le_succ_of_le hi)⟩
    · exact Or.inl ⟨h.rescue, rfl⟩
  · rintro (⟨hnow, rfl⟩ | ⟨hnot, h⟩)
    · exact ⟨le_rfl, hnow, fun i hr hi => absurd hi (Nat.not_le.2 hr)⟩
    · refine ⟨Nat.le_succ_of_le h.le, h.rescue, fun i hr hi => ?_⟩
      rcases Nat.lt_or_eq_of_le hi with hlt | rfl
      · exact h.last i hr (Nat.le_of_lt_succ hlt)
      · exact hnot

/-- Tick `r` is the last one up to tick `n` in which there is a rescue, and up to tick `n` the low
layer does not come back. -/
def OffSince (start : Watchdog) (ticks : List Tick) (n r : Nat) : Prop :=
  LastRescue start ticks n r ∧ StaysOff start ticks r (n + 1)

theorem offSince_succ_iff :
    OffSince start ticks (n + 1) r ↔
      .restoreLow ∉ start.kinds (ticks.take (n + 1)) ∧
        ((.rescue ∈ start.kinds (ticks.take (n + 1)) ∧ r = n + 1) ∨
          (.rescue ∉ start.kinds (ticks.take (n + 1)) ∧ OffSince start ticks n r)) := by
  have hstays : r ≤ n + 1 → (StaysOff start ticks r (n + 2) ↔
      StaysOff start ticks r (n + 1) ∧ .restoreLow ∉ start.kinds (ticks.take (n + 1))) := by
    intro hle
    constructor
    · exact fun h => ⟨fun i hr hi => h i hr (Nat.lt_succ_of_lt hi), h _ hle (Nat.lt_succ_self _)⟩
    · rintro ⟨h, hnot⟩ i hr hi
      rcases Nat.lt_succ_iff_lt_or_eq.1 hi with hlt | rfl
      · exact h i hr hlt
      · exact hnot
  rw [OffSince, lastRescue_succ_iff]
  constructor
  · rintro ⟨⟨hnow, rfl⟩ | ⟨hnot, h⟩, hoff⟩
    · exact ⟨((hstays le_rfl).1 hoff).2, Or.inl ⟨hnow, rfl⟩⟩
    · obtain ⟨hbefore, hkept⟩ := (hstays (Nat.le_succ_of_le h.le)).1 hoff
      exact ⟨hkept, Or.inr ⟨hnot, h, hbefore⟩⟩
  · rintro ⟨hkept, ⟨hnow, rfl⟩ | ⟨hnot, h, hbefore⟩⟩
    · exact ⟨Or.inl ⟨hnow, rfl⟩,
        (hstays le_rfl).2 ⟨fun i hr hi => absurd hi (Nat.not_lt.2 hr), hkept⟩⟩
    · exact ⟨Or.inr ⟨hnot, h⟩, (hstays (Nat.le_succ_of_le h.le)).2 ⟨hbefore, hkept⟩⟩

/-- The low layer is given up exactly while it has not come back since the last rescue, and from
that rescue on the ticks are counted. -/
theorem follow_lowDisabled (ceilings : Caps) (hn : n ≤ ticks.length) :
    (((ofCeilings ceilings).follow (ticks.take n)).lowDisabled = true ↔
        ∃ r, OffSince (ofCeilings ceilings) ticks n r) ∧
      ∀ r, OffSince (ofCeilings ceilings) ticks n r →
        ((ofCeilings ceilings).follow (ticks.take n)).restoreTicks + r = n + 1 := by
  induction n with
  | zero =>
    have hnone : ∀ r, ¬ OffSince (ofCeilings ceilings) ticks 0 r :=
      fun r h => Nat.lt_irrefl 0 h.1.pos
    exact ⟨iff_of_false Bool.false_ne_true fun ⟨r, h⟩ => hnone r h, fun r h => absurd h (hnone r)⟩
  | succ n ih =>
    obtain ⟨hlow, hcount⟩ := ih (Nat.le_of_succ_le hn)
    obtain ⟨-, hafter, hnext⟩ :=
      step_low ((ofCeilings ceilings).follow (ticks.take n)) ticks[n].sample
    simp only [← follow_take_succ _ hn, ← kinds_take_succ _ hn] at hafter hnext
    have hiff : ((ofCeilings ceilings).follow (ticks.take (n + 1))).lowDisabled = true ↔
        ∃ r, OffSince (ofCeilings ceilings) ticks (n + 1) r := by
      rw [hafter, hlow]
      simp only [offSince_succ_iff]
      by_cases hnow : .rescue ∈ (ofCeilings ceilings).kinds (ticks.take (n + 1))
      · simp [hnow]
      · simp [hnow, and_comm]
    refine ⟨hiff, fun r h => ?_⟩
    rw [hnext (hiff.2 ⟨r, h⟩)]
    obtain ⟨-, ⟨hnow, rfl⟩ | ⟨hnot, hbefore⟩⟩ := offSince_succ_iff.1 h
    · rw [if_pos hnow, Nat.add_comm]
    · rw [if_neg hnot, Nat.add_right_comm, hcount r hbefore]

/-- The low layer comes back in the tenth tick from the last rescue on, or earlier with bandwidth in
plenty. -/
theorem restoreLow_mem_kinds_iff (ceilings : Caps) (hn : n < ticks.length) :
    .restoreLow ∈ (ofCeilings ceilings).kinds (ticks.take (n + 1)) ↔
      ∃ r, LastRescue (ofCeilings ceilings) ticks (n + 1) r ∧
        StaysOff (ofCeilings ceilings) ticks r (n + 1) ∧ (ticks[n].IsAmple ∨ n + 1 = r + 9) := by
  obtain ⟨hlow, hcount⟩ := follow_lowDisabled ceilings hn.le
  obtain ⟨hback, -⟩ := step_low ((ofCeilings ceilings).follow (ticks.take n)) ticks[n].sample
  have hlt : ((ofCeilings ceilings).follow (ticks.take n)).restoreTicks < 10 :=
    (counts_follow ceilings (ticks.take n)).restore_lt
  simp only [← kinds_take_succ _ hn, ← Tick.isAmple_iff, ticksToRestore] at hback
  rw [hback, hlow]
  simp only [lastRescue_succ_iff]
  by_cases hnow : .rescue ∈ (ofCeilings ceilings).kinds (ticks.take (n + 1))
  · -- The count has only begun, and nothing is between the rescue and now.
    have hvoid : StaysOff (ofCeilings ceilings) ticks (n + 1) (n + 1) :=
      fun i hr hi => absurd hi (Nat.not_lt.2 hr)
    constructor
    · rintro ⟨-, hwhen⟩
      rw [if_pos hnow] at hwhen
      exact ⟨n + 1, Or.inl ⟨hnow, rfl⟩, hvoid, hwhen.imp_right fun h => absurd h (by decide)⟩
    · rintro ⟨r, ⟨-, rfl⟩ | ⟨hnot, -⟩, -, hwhen⟩
      · exact ⟨Or.inl hnow, hwhen.imp_right fun h => by omega⟩
      · exact absurd hnow hnot
  · simp only [hnow, false_or, if_false, not_false_eq_true, false_and, true_and]
    constructor
    · rintro ⟨⟨r, h⟩, hwhen⟩
      refine ⟨r, h.1, h.2, hwhen.imp_right fun hticks => ?_⟩
      have := hcount r h
      omega
    · rintro ⟨r, hlast, hoff, hwhen⟩
      refine ⟨⟨r, hlast, hoff⟩, hwhen.imp_right fun hticks => ?_⟩
      have := hcount r ⟨hlast, hoff⟩
      omega

end History

/-- What is done in a tick after any operations. All that matters are the ticks since the last reset,
this one included. Of a kick there is one, with the first tick that is the fifth starved one in a
row. The third tick of a pause leads to a rescue and the fifteenth to a hard rescue, and so again
after each fifteen ticks. The low layer comes back if it has not done so since the last rescue, and
if bandwidth is in plenty or this is the tenth tick from that rescue on. -/
theorem run_returns_on_schedule (ceilings : Caps) (calls : List Call) (t : Tick) :
    let start := ofCeilings ceilings
    let ticks := sinceReset calls ++ [t]
    let now := ticks.length
    let pause := streak Tick.IsPaused ticks
    let actions := ((start.run calls).evaluate t.sample t.applied).value.2
    let kinds := actions.map Action.kind
    kinds = start.kinds ticks ∧
      (∀ a ∈ actions, a.caps = t.applied.getD ceilings) ∧
      (kinds.Sublist [.kick, .rescue, .restoreLow] ∨
        kinds.Sublist [.kick, .hardRescue, .restoreLow]) ∧
      (.kick ∈ kinds ↔ 5 ≤ streak Tick.IsStarved ticks ∧
        ∀ i < now, streak Tick.IsStarved (ticks.take i) < 5) ∧
      (.rescue ∈ kinds ↔ pause % 15 = 3) ∧
      (.hardRescue ∈ kinds ↔ 0 < pause ∧ pause % 15 = 0) ∧
      (.restoreLow ∈ kinds ↔ ∃ r, LastRescue start ticks now r ∧ StaysOff start ticks r now ∧
        (t.IsAmple ∨ now = r + 9)) := by
  intro start ticks now pause actions kinds
  have hactions : actions = ((start.follow (sinceReset calls)).tick t).2 := by
    rw [show actions = ((start.run calls).tick t).2 from rfl, run_eq_follow]
  have hstep : kinds = ((start.follow (sinceReset calls)).step t.sample).2 := by
    rw [show kinds = actions.map Action.kind from rfl, hactions, map_kind_tick]
  have hkinds : kinds = start.kinds ticks := by rw [hstep, kinds_append_singleton]
  -- This tick is the last one of all.
  have hlast : (sinceReset calls).length < ticks.length := by simp [ticks]
  have htake : ticks.take ((sinceReset calls).length + 1) = ticks :=
    List.take_of_length_le (by simp [ticks])
  have hkick := kick_mem_kinds_iff ceilings hlast
  have hlow := restoreLow_mem_kinds_iff ceilings hlast
  have hget : ticks[(sinceReset calls).length] = t := by simp [ticks]
  rw [htake] at hkick hlow
  rw [hget] at hlow
  obtain ⟨hrescue, hhard⟩ := rescues_mem_kinds_iff ceilings ticks
  have hnow : (sinceReset calls).length + 1 = now := by simp [now, ticks]
  rw [hnow] at hkick hlow
  refine ⟨hkinds, ?_, ?_, ?_, ?_, ?_, ?_⟩
  · intro a ha
    rw [hactions, tick_actions, follow_ceilings] at ha
    obtain ⟨kind, -, rfl⟩ := List.mem_map.1 ha
    rfl
  · rw [hstep]
    exact step_sublist _ _
  all_goals rw [hkinds]
  · exact hkick
  · exact hrescue
  · exact hhard
  · exact hlow

end Simulcast.Watchdog
