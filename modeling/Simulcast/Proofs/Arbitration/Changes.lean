import Simulcast.Proofs.Arbitration.Queue

/-!
# Caps are handed out when they change

What an arbitrator decides about the caps waits in the queue exactly if the caps in force are others
than before. That rests on the entries being numbers: caps with a NaN would never be the same as
those in force and would be handed out again and again. The ceilings may hold a NaN. It gives way to
the first entry, and without any entry the ceilings are not compared.

## Main definitions

* `Arbitrator.EntriesAreNumbers` — no entry holds a NaN

## Main results

* `Arbitrator.EntriesAreNumbers.request_queue` — what a request leaves in an empty queue
* `Arbitrator.EntriesAreNumbers.cleanup_queue` — what a cleanup leaves there
-/

namespace Simulcast

namespace Caps

variable {c d : Caps}

/-- NaN gives way to what is a number. -/
theorem IsNumber.min_right (hd : d.IsNumber) : (Min.min c d).IsNumber := by
  intro l hnan
  rw [get_min] at hnan
  exact hd l (Binary64.min_eq_nan_iff.1 hnan).2

/-- One number is enough for the minimum of all to be one. -/
theorem isNumber_foldl_of_ne_nil (c : Caps) {all : List Caps} (hall : ∀ d ∈ all, d.IsNumber)
    (hne : all ≠ []) : (all.foldl min c).IsNumber := by
  cases all with
  | nil => exact absurd rfl hne
  | cons d all =>
    -- After the first number the minimum stays one, also if it began with a NaN.
    exact isNumber_foldl (hall d List.mem_cons_self).min_right all

end Caps

namespace Arbitrator

variable {a : Arbitrator}

/-- No entry holds a NaN. -/
def EntriesAreNumbers (a : Arbitrator) : Prop :=
  ∀ name e, a.entries.get? name = some e → e.caps.IsNumber

theorem entriesAreNumbers_ofConfig (identity : String) (config : Config) :
    (ofConfig identity config).EntriesAreNumbers := by
  intro name e he
  simp [ofConfig] at he

theorem EntriesAreNumbers.step (h : a.EntriesAreNumbers) (call : Call) :
    (a.step call).EntriesAreNumbers := by
  intro name e he
  -- An entry is either set by this very operation or was there before.
  rcases (get?_step call).1 he with hsets | ⟨hold, -⟩
  · obtain ⟨t, ht⟩ := hsets.exists_sanitize
    rw [ht]
    exact Caps.isNumber_sanitize t a.ceilings
  · exact h name e hold

/-- With an entry the strictest caps are numbers. -/
theorem EntriesAreNumbers.isNumber_strictest (h : a.EntriesAreNumbers)
    (hentry : ∃ name, a.entries.get? name ≠ none) : a.strictest.IsNumber := by
  rw [strictest, ← List.foldl_map]
  refine Caps.isNumber_foldl_of_ne_nil a.ceilings ?_ ?_
  · intro c hc
    obtain ⟨name, e, hget, rfl⟩ := (mem_map_caps_iff c).1 hc
    exact h name e hget
  · obtain ⟨name, hname⟩ := hentry
    obtain ⟨e, hget⟩ := Option.ne_none_iff_exists'.1 hname
    exact List.ne_nil_of_mem ((mem_map_caps_iff e.caps).2 ⟨name, e, hget, rfl⟩)

/-- Putting the strictest caps in force hands them out if they are others than before. -/
theorem enforce_queue_eq (hqueue : a.queue = []) (hnumber : a.strictest.IsNumber) :
    a.enforce.value.queue =
      if a.enforce.value.applied = a.applied then [] else [.apply a.enforce.value.effective] := by
  rw [enforce_value]
  by_cases hsame : a.applied.any a.strictest.same = true
  · rw [if_pos hsame, if_pos rfl, hqueue]
  · rw [if_neg hsame]
    -- Caps that are in force already would be the same as themselves.
    have hne : some a.strictest ≠ a.applied := by
      intro heq
      rw [← heq, Option.any_some] at hsame
      exact hsame (Caps.same_refl hnumber)
    change (a.queue.filter fun task => !task.isApply) ++ [.apply a.strictest] =
      if some a.strictest = a.applied then [] else [.apply a.strictest]
    rw [if_neg hne, hqueue]
    rfl

/-- A request leaves its acknowledgement in the queue, after the caps if they have changed. -/
theorem EntriesAreNumbers.request_queue (h : a.EntriesAreNumbers) (hqueue : a.queue = [])
    (r : CapRequest) (source : String) (now : Time) :
    let b := a.step (.request r source now)
    b.queue = (if b.applied = a.applied then [] else [.apply b.effective]) ++
      [.ack (keyOf source r) (.ofHigh b.effective.high a.identity)] := by
  intro b
  -- The entry of the request is there before anything is decided.
  have hentries : (a.enroll r source now).EntriesAreNumbers := by
    intro name e he
    refine h.step (.request r source now) name e ?_
    rw [Arbitrator.step, request_value, enforce_entries]
    exact he
  have hentry : (a.enroll r source now).entries.get? (keyOf source r) ≠ none := by
    simp [enroll, Roster.get?_insert]
  have henforce := enforce_queue_eq (a := a.enroll r source now) hqueue
    (hentries.isNumber_strictest ⟨_, hentry⟩)
  change (a.enroll r source now).enforce.value.queue ++
    [.ack (keyOf source r) (CapAck.ofHigh b.effective.high b.identity)] = _
  rw [henforce, (step_settings a (.request r source now)).1]
  rfl

/-- A cleanup leaves caps in the queue if they have changed. -/
theorem EntriesAreNumbers.cleanup_queue (h : a.EntriesAreNumbers) (hqueue : a.queue = [])
    (now : Time) :
    let b := a.step (.cleanup now)
    b.queue = if b.applied = a.applied then [] else [.apply b.effective] := by
  intro b
  have hvalue : b = (a.cleanup now).value := rfl
  rw [hvalue, cleanup_value]
  by_cases hempty : (a.expire now).entries.isEmpty = true
  · rw [if_pos hempty]
    by_cases hsome : a.applied.isSome = true
    · -- The last entry is gone, and with it the caps in force.
      have hne : none ≠ a.applied := by
        intro hnone
        rw [← hnone] at hsome
        cases hsome
      rw [if_pos hsome]
      change (a.queue.filter fun task => !task.isApply) ++ [.apply a.ceilings] =
        if none = a.applied then [] else [.apply a.ceilings]
      rw [if_neg hne, hqueue]
      rfl
    · rw [if_neg hsome]
      exact hqueue.trans (if_pos rfl).symm
  · rw [if_neg hempty]
    rw [Roster.isEmpty_iff] at hempty
    have hentries : (a.expire now).EntriesAreNumbers := fun name e he =>
      h name e ((get?_expire now).1 he).1
    exact enforce_queue_eq (a := a.expire now) hqueue
      (hentries.isNumber_strictest (not_forall.1 hempty))

end Arbitrator

end Simulcast
