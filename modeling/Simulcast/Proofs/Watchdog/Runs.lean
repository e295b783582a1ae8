import Mathlib.Data.List.Induction
import Simulcast.Proofs.Watchdog.Counters

/-!
# Runs of a watchdog

A watchdog is asked once per tick, and it may be reset in between. A reset leaves nothing but the
ceilings, so that the state after any operations is that of a new watchdog after the ticks since the
last reset.

However long a run is, the counts stay small. No tick counts further than to fifteen, so the counts
fit into any word, and the two that belong together stay in step.

## Main definitions

* `Watchdog.Tick`, `Watchdog.Call` — one tick, and any operation
* `Watchdog.tick`, `Watchdog.follow`, `Watchdog.run` — one tick, several ticks, and any operations
* `Watchdog.sinceReset` — the ticks since the last reset
* `Watchdog.kinds` — the kinds of action that the last of some ticks leads to

## Main results

* `Watchdog.run_eq_follow` — what came before the last reset does not matter
* `Watchdog.run_counters_in_step` — the counts after any operations
-/

namespace Simulcast.Watchdog

open Simulcast.Action (Kind)

/-! ### Operations -/

/-- What a watchdog is given in a tick. -/
structure Tick where
  sample : OutboundSample
  /-- The caps in force, if there are any. -/
  applied : Option Caps
  deriving DecidableEq

/-- An operation of a watchdog. -/
inductive Call where
  | evaluate (t : Tick)
  | reset
  deriving DecidableEq

/-- The watchdog after a tick, and the actions of the tick. -/
def tick (w : Watchdog) (t : Tick) : Watchdog × List Action :=
  (w.evaluate t.sample t.applied).value

/-- The watchdog after some ticks. -/
def follow (w : Watchdog) (ticks : List Tick) : Watchdog :=
  ticks.foldl (fun w t => (w.tick t).1) w

/-- The watchdog after an operation. -/
def next (w : Watchdog) : Call → Watchdog
  | .evaluate t => (w.tick t).1
  | .reset => w.reset

/-- The watchdog after some operations. -/
def run (w : Watchdog) (calls : List Call) : Watchdog := calls.foldl next w

/-- The ticks since the last reset. -/
def sinceReset (calls : List Call) : List Tick :=
  calls.foldl
    (fun ticks call =>
      match call with
      | .evaluate t => ticks ++ [t]
      | .reset => [])
    []

/-- The kinds of action that the last of some ticks leads to. -/
def kinds (start : Watchdog) (ticks : List Tick) : List Kind :=
  match ticks.getLast? with
  | some t => ((start.follow ticks.dropLast).tick t).2.map Action.kind
  | none => []

variable {start w : Watchdog}

theorem follow_append_singleton (start : Watchdog) (ticks : List Tick) (t : Tick) :
    start.follow (ticks ++ [t]) = ((start.follow ticks).step t.sample).1 := by
  simp only [follow, List.foldl_append, List.foldl_cons, List.foldl_nil]
  rfl

theorem run_append_singleton (w : Watchdog) (calls : List Call) (call : Call) :
    w.run (calls ++ [call]) = (w.run calls).next call := by
  simp only [run, List.foldl_append, List.foldl_cons, List.foldl_nil]

/-- The actions of a tick all carry the caps in force, or the ceilings if there are none. -/
theorem tick_actions (w : Watchdog) (t : Tick) :
    (w.tick t).2 = (w.step t.sample).2.map fun kind => ⟨kind, t.applied.getD w.ceilings⟩ := rfl

theorem map_kind_tick (w : Watchdog) (t : Tick) :
    (w.tick t).2.map Action.kind = (w.step t.sample).2 := by
  rw [tick_actions, List.map_map]
  exact List.map_id _

theorem kinds_append_singleton (start : Watchdog) (ticks : List Tick) (t : Tick) :
    start.kinds (ticks ++ [t]) = ((start.follow ticks).step t.sample).2 := by
  rw [kinds, List.getLast?_concat, List.dropLast_concat, ← map_kind_tick]

@[simp] theorem follow_ceilings (w : Watchdog) (ticks : List Tick) :
    (w.follow ticks).ceilings = w.ceilings := by
  induction ticks using List.reverseRecOn with
  | nil => rfl
  | append_singleton ticks t ih => rw [follow_append_singleton, step_ceilings, ih]

/-- What came before the last reset does not matter. -/
theorem run_eq_follow (ceilings : Caps) (calls : List Call) :
    (ofCeilings ceilings).run calls = (ofCeilings ceilings).follow (sinceReset calls) := by
  induction calls using List.reverseRecOn with
  | nil => rfl
  | append_singleton calls call ih =>
    rw [run_append_singleton, ih]
    have hsince : sinceReset (calls ++ [call]) =
        match call with
        | .evaluate t => sinceReset calls ++ [t]
        | .reset => [] := by
      rw [sinceReset, List.foldl_append]
      rfl
    rw [hsince]
    cases call with
    | evaluate t =>
      rw [follow_append_singleton]
      rfl
    | reset =>
      rw [next, reset, follow_ceilings]
      rfl

/-! ### The counts -/

theorem Counts.follow (h : start.Counts 2) (ticks : List Tick) : (start.follow ticks).Counts 2 := by
  induction ticks using List.reverseRecOn with
  | nil => exact h
  | append_singleton ticks t ih =>
    rw [follow_append_singleton]
    exact ih.step t.sample

/-- A hard rescue finds the low layer on and leaves it on, so nothing is to be brought back. -/
theorem Counts.low_of_hardRescue (h : w.Counts 2) {s : OutboundSample}
    (hrescue : .hardRescue ∈ (w.step s).2) :
    w.lowDisabled = false ∧ (w.step s).1.lowDisabled = false ∧ .restoreLow ∉ (w.step s).2 := by
  obtain ⟨kicks, kinds, hkinds, hkicks, hcases⟩ := h.step_cases s
  have hnot : ∀ kind, kind ≠ .kick → (kind ∈ (w.step s).2 ↔ kind ∈ kinds) := by
    intro kind hne
    rw [hkinds, List.mem_append]
    exact or_iff_right fun hmem => hne (hkicks kind hmem)
  rw [hnot _ (by decide)] at hrescue
  rw [hnot _ (by decide)]
  rcases hcases with ⟨rfl, -⟩ | ⟨rfl, -⟩ | ⟨rfl, -⟩ | ⟨rfl, hbefore, hafter⟩ | ⟨rfl, -⟩
  · simp at hrescue
  · simp at hrescue
  · simp at hrescue
  · exact ⟨hbefore, hafter, by simp⟩
  · simp at hrescue

/-- After any operations the counts are small, so that no tick makes them overflow. Ticks without a low
layer are counted exactly while it is given up, and during a pause that led to a rescue they are two
behind the ticks of the pause. So a hard rescue never meets a low layer that is given up, and it never
comes together with the return of the low layer. -/
theorem run_counters_in_step (ceilings : Caps) (calls : List Call) (t : Tick) :
    let w := (ofCeilings ceilings).run calls
    let after := (w.evaluate t.sample t.applied).value.1
    let kinds := (w.evaluate t.sample t.applied).value.2.map Action.kind
    (w.starvedTicks ≤ 5 ∧ w.pausedTicks ≤ 14 ∧ w.restoreTicks ≤ 9) ∧
      (∀ count ∈ [w.starvedTicks, w.pausedTicks, w.restoreTicks], count + 1 < UInt32.size) ∧
      (w.lowDisabled = false → w.restoreTicks = 0) ∧
      (w.lowDisabled = true → 3 ≤ w.pausedTicks → w.restoreTicks = w.pausedTicks - 2) ∧
      (.hardRescue ∈ kinds →
        w.lowDisabled = false ∧ after.lowDisabled = false ∧ .restoreLow ∉ kinds) := by
  intro w after kinds
  have h : w.Counts 2 := by
    rw [show w = _ from run_eq_follow ceilings calls]
    exact (counts_ofCeilings ceilings).follow _
  have hbounds : w.starvedTicks ≤ 5 ∧ w.pausedTicks ≤ 14 ∧ w.restoreTicks ≤ 9 :=
    ⟨h.starved_le, Nat.le_of_lt_succ h.paused_lt, Nat.le_of_lt_succ h.restore_lt⟩
  refine ⟨hbounds, ?_, h.restore_of_enabled, fun hlow hpaused => ?_, fun hrescue => ?_⟩
  · intro count hcount
    have hle : count ≤ 14 := by
      simp only [List.mem_cons, List.not_mem_nil, or_false] at hcount
      omega
    exact Nat.lt_of_le_of_lt (Nat.succ_le_succ hle) (by decide)
  · exact Nat.eq_sub_of_add_eq (h.restore_of_paused hlow hpaused)
  · have hkinds : kinds = (w.step t.sample).2 := map_kind_tick w t
    rw [hkinds] at hrescue ⊢
    exact h.low_of_hardRescue hrescue

end Simulcast.Watchdog
