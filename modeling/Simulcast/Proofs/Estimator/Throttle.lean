import Simulcast.Proofs.Estimator.Requests
import Simulcast.Proofs.Splits

/-!
# How close to each other requests can be

The interval of the settings keeps the requests of one episode apart. It does not keep those of
different episodes apart: an estimator that takes its caps back forgets when it asked for them, and
the next episode begins with a request whatever the time. Where loss comes and goes faster than the
interval, caps are therefore asked for more often than the interval allows.

So if the time does not run backwards, two requests for caps may be closer than the interval only if
caps were taken back between them.

## Main definitions

* `Estimator.Call.time?` — the time of an operation
* `Estimator.Spaced` — requests for caps are the interval apart, or caps were taken back between them
* `Estimator.flappingLoss` — a congestion with half a second without loss in its middle

## Main results

* `Estimator.close_requests_straddle_restore` — what lies between two requests that are too close
* `Estimator.flapping_loss_outpaces_interval` — two requests that are too close
-/

namespace Simulcast.Estimator

variable {e : Estimator} {interval : Time} {sent before between current : List Sent}
  {past : List Episode} {first s : Sent}

/-! ### The times of requests -/

/-- The time of an operation, if it has one. -/
def Call.time? : Call → Option Time
  | .update t => some t.now
  | _ => none

theorem time_of_request? {call : Call} (h : e.request? call = some s) :
    call.time? = some s.time := by
  cases call with
  | update t =>
    obtain ⟨r, -, rfl⟩ := Option.map_eq_some_iff.1 h
    rfl
  | acknowledge => cases h
  | reset => cases h

/-- A request has the time of the operation that led to it. -/
theorem times_requests_sublist (e : Estimator) (calls : List Call) :
    ((e.requests calls).map Sent.time).Sublist (calls.filterMap Call.time?) := by
  induction calls generalizing e with
  | nil => exact List.Sublist.refl []
  | cons call calls ih =>
    have hrest := ih (e.step call)
    rw [requests, List.map_append]
    cases hs : e.request? call with
    | none =>
      rw [Option.toList_none, List.map_nil, List.nil_append]
      refine hrest.trans ?_
      exact (List.sublist_cons_self call calls).filterMap Call.time?
    | some s =>
      rw [List.filterMap_cons_some (time_of_request? hs)]
      exact hrest.cons_cons s.time

/-! ### The distance between requests -/

/-- Two requests for caps are at least the interval apart, unless caps were taken back between
them. -/
def Spaced (interval : Time) (sent : List Sent) : Prop :=
  ∀ before first between second after, sent = before ++ first :: (between ++ second :: after) →
    first.request.reason ≠ .restore → second.request.reason ≠ .restore →
    (∀ s ∈ between, s.request.reason ≠ .restore) →
    interval ≤ Time.since second.time first.time

theorem spaced_nil : Spaced interval [] := by
  intro before first between second after heq
  simp at heq

/-- It is enough to look at the distance of a new request from earlier ones. -/
theorem Spaced.append_singleton (h : Spaced interval sent)
    (hnew : s.request.reason ≠ .restore → ∀ before first between,
      sent = before ++ first :: between → first.request.reason ≠ .restore →
      (∀ r ∈ between, r.request.reason ≠ .restore) → interval ≤ Time.since s.time first.time) :
    Spaced interval (sent ++ [s]) := by
  intro before first between second after heq hfirst hsecond hbetween
  rw [← List.cons_append, ← List.append_assoc] at heq
  rcases append_singleton_eq_append_cons_iff.1 heq with ⟨-, hsent, rfl⟩ | ⟨rest, -, hsent⟩
  · -- The second request is the new one.
    exact hnew hsecond before first between hsent hfirst hbetween
  · rw [List.append_assoc, List.cons_append] at hsent
    exact h before first between second rest hsent hfirst hsecond hbetween

/-- If caps were not taken back since a request for caps, the request belongs to the current
episode. -/
theorem Remembers.mem_current (h : e.Remembers sent past current)
    (heq : sent = before ++ first :: between) (hfirst : first.request.reason ≠ .restore)
    (hbetween : ∀ r ∈ between, r.request.reason ≠ .restore) : first ∈ current := by
  have hsent := h.sent_eq.symm.trans heq
  rcases List.eq_nil_or_concat past with rfl | ⟨earlier, episode, rfl⟩
  · have hcurrent : current = before ++ first :: between := hsent
    simp [hcurrent]
  · -- The last of the past episodes ends with a request that takes caps back.
    rw [List.concat_eq_append, List.flatMap_append, List.flatMap_singleton, Episode.requests,
      ← List.append_assoc] at hsent
    rcases List.append_eq_append_iff.1 hsent with ⟨rest, -, hcurrent⟩ | ⟨rest, hpast, htail⟩
    · simp [hcurrent]
    · rcases List.eq_nil_or_concat rest with rfl | ⟨rest, last, rfl⟩
      · have hcurrent : first :: between = current := htail
        simp [← hcurrent]
      · rw [List.concat_eq_append, ← List.append_assoc] at hpast
        obtain ⟨-, hlast⟩ := List.append_inj' hpast rfl
        obtain rfl := (List.cons.inj hlast).1
        have hmem : episode.restore ∈ first :: between := by simp [htail]
        rcases List.mem_cons.1 hmem with hhead | hrest
        · exact absurd (hhead ▸ episode.reason_restore) hfirst
        · exact absurd episode.reason_restore (hbetween _ hrest)

/-- The last request of the current episode is the latest one. -/
theorem Remembers.le_last (h : e.Remembers sent past current)
    (htimes : (sent.map Sent.time).Pairwise (· ≤ ·)) (hfirst : first ∈ current) :
    ∃ last, current.getLast? = some last ∧ first.time ≤ last.time := by
  rcases List.eq_nil_or_concat current with rfl | ⟨init, last, rfl⟩
  · cases hfirst
  · rw [List.concat_eq_append] at hfirst ⊢
    refine ⟨last, List.getLast?_concat, ?_⟩
    rw [h.sent_eq, List.concat_eq_append, ← List.append_assoc, List.map_append,
      List.pairwise_append] at htimes
    rcases List.mem_append.1 hfirst with hinit | hlast
    · exact htimes.2.2 first.time (List.mem_map_of_mem (List.mem_append_right _ hinit)) last.time
        (by simp)
    · rw [List.mem_singleton.1 hlast]

theorem spaced_requests (config : Config) {calls : List Call} (hcalls : .reset ∉ calls)
    (htimes : (calls.filterMap Call.time?).Pairwise (· ≤ ·)) :
    Spaced config.interval ((ofConfig config).requests calls) := by
  induction calls using List.reverseRecOn with
  | nil => exact spaced_nil
  | append_singleton calls call ih =>
    obtain ⟨hold, hcall⟩ : .reset ∉ calls ∧ call ≠ .reset := by
      simpa [eq_comm] using hcalls
    rw [List.filterMap_append, List.pairwise_append] at htimes
    have hspaced := ih hold htimes.1
    obtain ⟨past, current, h⟩ := exists_remembers config hold
    have hsorted := htimes.1.sublist (times_requests_sublist (ofConfig config) calls)
    rw [requests_append_singleton]
    rcases h.step_cases ((isCoherent_ofConfig config).run calls) hcall with
      ⟨hnone, -⟩ | ⟨s, hs, -, hinterval, -⟩ | ⟨s, episode, hs, hrestore, -⟩
    · rw [hnone, Option.toList_none, List.append_nil]
      exact hspaced
    · rw [hs]
      refine hspaced.append_singleton fun _ before first between heq hfirst hbetween => ?_
      -- The interval has passed since the last request, so all the more since this one.
      obtain ⟨last, hlast, hle⟩ := h.le_last hsorted (h.mem_current heq hfirst hbetween)
      have hsince := hinterval last hlast
      rw [run_config, ofConfig] at hsince
      exact hsince.trans (Nat.sub_le_sub_left hle s.time)
    · rw [hs]
      exact hspaced.append_singleton fun hreason => absurd hrestore hreason

/-- If the time does not run backwards, caps were taken back between any two requests for caps of
one subscription that are closer to each other than the interval. -/
theorem close_requests_straddle_restore (config : Config) {calls : List Call}
    (hcalls : .reset ∉ calls) (htimes : (calls.filterMap Call.time?).Pairwise (· ≤ ·))
    {before between after : List Sent} {first second : Sent}
    (hsent : (ofConfig config).requests calls = before ++ first :: (between ++ second :: after))
    (hfirst : first.request.reason ≠ .restore) (hsecond : second.request.reason ≠ .restore)
    (hclose : Time.since second.time first.time < config.interval) :
    ∃ s ∈ between, s.request.reason = .restore := by
  by_contra hnone
  have hbetween : ∀ s ∈ between, s.request.reason ≠ .restore := by
    intro s hs hrestore
    exact hnone ⟨s, hs, hrestore⟩
  have hspaced := spaced_requests config hcalls htimes
  exact Nat.not_le_of_lt hclose
    (hspaced before first between second after hsent hfirst hsecond hbetween)

/-! ### Loss that comes and goes -/

/-- Half a second without loss in the middle of a congestion. -/
def flappingLoss : List Call :=
  let tick (lost : Nat) (now : Time) : Call := .update ⟨⟨lost, .mega 4⟩, "receiver", now⟩
  [tick 50 0, tick 0 500, tick 50 1000]

theorem reset_notMem_flappingLoss : .reset ∉ flappingLoss := by
  simp [flappingLoss]

theorem pairwise_times_flappingLoss :
    (flappingLoss.filterMap Call.time?).Pairwise (· ≤ ·) := by
  have htimes : flappingLoss.filterMap Call.time? = [0, 500, 1000] := rfl
  rw [htimes]
  decide

/-- What it leads to, with the usual settings. -/
theorem requests_flappingLoss :
    ((ofConfig {}).requests flappingLoss).map (fun s => (s.time, s.request.reason)) =
      [(0, .severe), (500, .restore), (1000, .severe)] := by
  decide +kernel

theorem exists_requests_flappingLoss :
    ∃ first back second, (ofConfig {}).requests flappingLoss = [first, back, second] ∧
      first.request.reason ≠ .restore ∧ second.request.reason ≠ .restore ∧
      Time.since second.time first.time < ({} : Config).interval := by
  obtain ⟨first, sent, hsent, hfirst, htail⟩ := List.map_eq_cons_iff.1 requests_flappingLoss
  obtain ⟨back, sent, rfl, -, hlast⟩ := List.map_eq_cons_iff.1 htail
  obtain ⟨second, rfl, hsecond⟩ := List.map_eq_singleton_iff.1 hlast
  obtain ⟨hstart, hsevere⟩ := Prod.mk.inj hfirst
  obtain ⟨hend, hsevere'⟩ := Prod.mk.inj hsecond
  refine ⟨first, back, second, hsent, by simp [hsevere], by simp [hsevere'], ?_⟩
  rw [hstart, hend]
  decide

/-- Caps are asked for twice in a second, although the interval is two seconds. -/
theorem flapping_loss_outpaces_interval :
    .reset ∉ flappingLoss ∧ (flappingLoss.filterMap Call.time?).Pairwise (· ≤ ·) ∧
      ∃ first back second, (ofConfig {}).requests flappingLoss = [first, back, second] ∧
        first.request.reason ≠ .restore ∧ second.request.reason ≠ .restore ∧
        Time.since second.time first.time < ({} : Config).interval :=
  ⟨reset_notMem_flappingLoss, pairwise_times_flappingLoss, exists_requests_flappingLoss⟩

/-- What is between those two requests takes the caps back. -/
theorem flapping_loss_restores_between :
    ∃ first back second, (ofConfig {}).requests flappingLoss = [first, back, second] ∧
      first.request.reason ≠ .restore ∧ second.request.reason ≠ .restore ∧
      Time.since second.time first.time < ({} : Config).interval ∧
      back.request.reason = .restore := by
  obtain ⟨first, back, second, hsent, hfirst, hsecond, hclose⟩ := exists_requests_flappingLoss
  have hsplit : (ofConfig {}).requests flappingLoss = [] ++ first :: ([back] ++ second :: []) :=
    hsent
  obtain ⟨s, hs, hrestore⟩ := close_requests_straddle_restore {} reset_notMem_flappingLoss
    pairwise_times_flappingLoss hsplit hfirst hsecond hclose
  rw [List.mem_singleton.1 hs] at hrestore
  exact ⟨first, back, second, hsent, hfirst, hsecond, hclose, hrestore⟩

end Simulcast.Estimator
