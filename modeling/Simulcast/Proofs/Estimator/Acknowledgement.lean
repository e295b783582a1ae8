import Mathlib.Data.List.DropRight
import Simulcast.Proofs.Estimator.Requests
import Simulcast.Proofs.Splits

/-!
# When an estimator gives up on the publisher

An estimator that is capped expects to hear from the publisher. If nothing was acknowledged since the
subscription began, and the request that began the current episode is as old as the timeout, it says
that other layers should be chosen instead.

What it has said, it keeps saying. Neither the end of the episode nor an acknowledgement that comes
too late takes it back, and an acknowledgement that came in time, be it in an earlier episode, means
that it is never said at all. So the flag is described by the history: there was a tick in which the
acknowledgement was missed.

## Main definitions

* `Estimator.sinceReset` — the operations of the current subscription
* `Estimator.openRequests` — the requests of the current episode
* `Estimator.MissesAck` — a tick in which an acknowledgement is overdue

## Main results

* `Estimator.fallback_tick` — what a tick does to the flag
* `Estimator.run_fallback_iff` — the flag after any operations and a tick
-/

namespace Simulcast.Estimator

variable {e : Estimator} {config : Config} {calls : List Call}

/-! ### The current subscription -/

/-- The operations since the beginning of the current subscription. -/
def sinceReset (calls : List Call) : List Call := calls.rtakeWhile (· ≠ .reset)

theorem reset_notMem_sinceReset (calls : List Call) : .reset ∉ sinceReset calls := by
  intro hmem
  simpa using List.mem_rtakeWhile_imp hmem

/-- What came before the current subscription does not matter. -/
theorem run_sinceReset (config : Config) (calls : List Call) :
    (ofConfig config).run (sinceReset calls) = (ofConfig config).run calls := by
  induction calls using List.reverseRecOn with
  | nil => rfl
  | append_singleton calls call ih =>
    by_cases hcall : call = .reset
    · have hnone : sinceReset (calls ++ [call]) = [] :=
        List.rtakeWhile_concat_neg _ _ _ (by simp [hcall])
      rw [hnone, run_append_singleton, hcall, step, reset, run_config]
      rfl
    · have hmore : sinceReset (calls ++ [call]) = sinceReset calls ++ [call] :=
        List.rtakeWhile_concat_pos _ _ _ (by simp [hcall])
      rw [hmore, run_append_singleton, run_append_singleton, ih]

/-! ### The current episode -/

/-- The requests of the current episode, which are those since caps were last taken back. -/
def openRequests (sent : List Sent) : List Sent :=
  sent.rtakeWhile fun s => s.request.reason ≠ .restore

theorem openRequests_append {sent more : List Sent}
    (h : ∀ s ∈ more, s.request.reason ≠ .restore) :
    openRequests (sent ++ more) = openRequests sent ++ more := by
  induction more using List.reverseRecOn with
  | nil => simp
  | append_singleton more s ih =>
    have hs : openRequests (sent ++ more ++ [s]) = openRequests (sent ++ more) ++ [s] :=
      List.rtakeWhile_concat_pos _ _ _ (by simpa using h s (by simp))
    rw [← List.append_assoc, hs, ih fun r hr => h r (by simp [hr]), List.append_assoc]

/-- After whole episodes there is no current one. -/
theorem openRequests_flatMap (past : List Episode) :
    openRequests (past.flatMap Episode.requests) = [] := by
  rcases List.eq_nil_or_concat past with rfl | ⟨earlier, episode, rfl⟩
  · rfl
  · rw [List.concat_eq_append, List.flatMap_append, List.flatMap_singleton, Episode.requests,
      ← List.append_assoc]
    exact List.rtakeWhile_concat_neg _ _ _ (by simp [episode.reason_restore])

theorem Remembers.openRequests_eq {sent current : List Sent} {past : List Episode}
    (h : e.Remembers sent past current) : openRequests sent = current := by
  rw [h.sent_eq, openRequests_append h.reason_of_mem, openRequests_flatMap, List.nil_append]

/-! ### One operation -/

/-- What the estimator says in a tick, it remembers. -/
theorem decision_fallback (e : Estimator) (t : Tick) :
    (e.tick t).2.fallback = (e.tick t).1.fallback := by
  rw [tick, update_value]

/-- A tick sets the flag if it leaves a cap in force whose first request is unanswered for too
long. -/
theorem fallback_tick (h : e.IsCoherent) (t : Tick) :
    (e.tick t).1.fallback = true ↔ e.fallback = true ∨
      ((e.tick t).1.capped = true ∧ e.acknowledged = false ∧
        ∃ first, (e.tick t).1.firstRequest = some first ∧
          e.config.ackTimeout ≤ Time.since t.now first) := by
  cases hcongested : (e.assessed t.sample).congested with
  | true =>
    rw [tick_of_congested hcongested]
    dsimp only
    -- Whether or not it asks, the tick looks at the first request of the episode it leaves behind.
    generalize hasked : (if e.isDue t.now then _ else _ : Estimator) = asked
    have hkept : asked.config = e.config ∧ asked.acknowledged = e.acknowledged ∧
        asked.fallback = e.fallback ∧ asked.capped = true := by
      rw [← hasked]
      split <;> exact ⟨rfl, rfl, rfl, rfl⟩
    obtain ⟨hconfig, hack, hfallback, hcapped⟩ := hkept
    unfold isOverdue
    rw [hconfig, hack, hfallback, hcapped]
    cases asked.firstRequest <;> cases e.fallback <;> cases e.acknowledged <;> simp
  | false =>
    -- Without a cap the flag stays what it was.
    cases hcapped : e.capped with
    | true =>
      rw [h.tick_of_relieved hcongested hcapped]
      simp
    | false =>
      rw [h.tick_of_quiet hcongested hcapped]
      simp [hcapped]

theorem acknowledged_tick (h : e.IsCoherent) (t : Tick) :
    (e.tick t).1.acknowledged = e.acknowledged := by
  cases hcongested : (e.assessed t.sample).congested with
  | true =>
    rw [tick_of_congested hcongested]
    dsimp only
    split <;> rfl
  | false =>
    cases hcapped : e.capped with
    | true => rw [h.tick_of_relieved hcongested hcapped]
    | false => rw [h.tick_of_quiet hcongested hcapped]

/-! ### All operations -/

/-- An acknowledgement is remembered for the whole subscription. -/
theorem acknowledged_run (config : Config) (hcalls : .reset ∉ calls) :
    ((ofConfig config).run calls).acknowledged = true ↔ .acknowledge ∈ calls := by
  induction calls using List.reverseRecOn with
  | nil => simp [run, ofConfig]
  | append_singleton calls call ih =>
    obtain ⟨hold, hcall⟩ : .reset ∉ calls ∧ call ≠ .reset := by
      simpa [eq_comm] using hcalls
    rw [run_append_singleton, List.mem_append, List.mem_singleton, ← ih hold]
    cases call with
    | update t =>
      rw [step, acknowledged_tick ((isCoherent_ofConfig config).run calls)]
      simp
    | acknowledge => simp [step, acknowledge]
    | reset => exact absurd rfl hcall

/-- In this tick, the next one after some operations of a subscription, a cap is in force, nothing was
acknowledged before, and the first request of the episode is as old as the timeout. -/
structure MissesAck (config : Config) (before : List Call) (t : Tick) : Prop where
  capped : ((ofConfig config).run (before ++ [.update t])).capped = true
  unanswered : .acknowledge ∉ before
  overdue : ∃ first,
    (openRequests ((ofConfig config).requests (before ++ [.update t]))).head? = some first ∧
      config.ackTimeout ≤ Time.since t.now first.time

theorem fallback_run_update (config : Config) (hcalls : .reset ∉ calls) (t : Tick) :
    ((ofConfig config).run (calls ++ [.update t])).fallback = true ↔
      ((ofConfig config).run calls).fallback = true ∨ MissesAck config calls t := by
  have hmore : .reset ∉ calls ++ [.update t] := by simpa using hcalls
  obtain ⟨past, current, h⟩ := exists_remembers config hmore
  have htick := fallback_tick ((isCoherent_ofConfig config).run calls) t
  have hafter : (((ofConfig config).run calls).tick t).1 =
      (ofConfig config).run (calls ++ [.update t]) := by
    rw [run_append_singleton]
    rfl
  have hack : ((ofConfig config).run calls).acknowledged = false ↔ .acknowledge ∉ calls := by
    rw [← acknowledged_run config hcalls, Bool.not_eq_true]
  rw [hafter, hack, run_config, h.firstRequest, ← h.openRequests_eq] at htick
  rw [htick]
  refine or_congr_right ?_
  constructor
  · rintro ⟨hcapped, hnone, first, hfirst, htimeout⟩
    obtain ⟨s, hs, rfl⟩ := Option.map_eq_some_iff.1 hfirst
    exact ⟨hcapped, hnone, s, hs, htimeout⟩
  · rintro ⟨hcapped, hnone, s, hs, htimeout⟩
    exact ⟨hcapped, hnone, s.time, Option.map_eq_some_iff.2 ⟨s, hs, rfl⟩, htimeout⟩

/-- The flag is set when an acknowledgement was missed in some tick of the subscription. -/
theorem fallback_run_iff (config : Config) (hcalls : .reset ∉ calls) :
    ((ofConfig config).run calls).fallback = true ↔
      ∃ before s after, calls = before ++ .update s :: after ∧ MissesAck config before s := by
  induction calls using List.reverseRecOn with
  | nil => simp [run, ofConfig]
  | append_singleton calls call ih =>
    obtain ⟨hold, hcall⟩ : .reset ∉ calls ∧ call ≠ .reset := by
      simpa [eq_comm] using hcalls
    -- Either the newest operation is the tick in question, or an earlier one is.
    have hsplit : (∃ before s after, calls ++ [call] = before ++ .update s :: after ∧
          MissesAck config before s) ↔
        (∃ s, call = .update s ∧ MissesAck config calls s) ∨
          ∃ before s after, calls = before ++ .update s :: after ∧ MissesAck config before s := by
      simp only [append_singleton_eq_append_cons_iff]
      constructor
      · rintro ⟨before, s, after, ⟨-, rfl, rfl⟩ | ⟨rest, -, rfl⟩, hmisses⟩
        · exact Or.inl ⟨s, rfl, hmisses⟩
        · exact Or.inr ⟨before, s, rest, rfl, hmisses⟩
      · rintro (⟨s, rfl, hmisses⟩ | ⟨before, s, after, rfl, hmisses⟩)
        · exact ⟨calls, s, [], Or.inl ⟨rfl, rfl, rfl⟩, hmisses⟩
        · exact ⟨before, s, after ++ [call], Or.inr ⟨after, rfl, rfl⟩, hmisses⟩
    rw [hsplit, ← ih hold]
    cases call with
    | update t => simp [fallback_run_update config hold t, or_comm]
    | acknowledge => simp [run_append_singleton, step, acknowledge]
    | reset => exact absurd rfl hcall

/-! ### The flag is final -/

theorem run_append (e : Estimator) (calls more : List Call) :
    e.run (calls ++ more) = (e.run calls).run more :=
  List.foldl_append ..

/-- A flag that is set stays set. -/
theorem fallback_run_of_fallback (h : e.IsCoherent) (hset : e.fallback = true)
    (hcalls : .reset ∉ calls) : (e.run calls).fallback = true := by
  induction calls using List.reverseRecOn with
  | nil => exact hset
  | append_singleton calls call ih =>
    obtain ⟨hold, hcall⟩ : .reset ∉ calls ∧ call ≠ .reset := by
      simpa [eq_comm] using hcalls
    rw [run_append_singleton]
    cases call with
    | update t => exact (fallback_tick (h.run calls) t).2 (Or.inl (ih hold))
    | acknowledge => exact ih hold
    | reset => exact absurd rfl hcall

/-- After an acknowledgement the flag stays what it is. -/
theorem fallback_run_of_acknowledged (h : e.IsCoherent) (hack : e.acknowledged = true)
    (hcalls : .reset ∉ calls) :
    (e.run calls).acknowledged = true ∧ (e.run calls).fallback = e.fallback := by
  induction calls using List.reverseRecOn with
  | nil => exact ⟨hack, rfl⟩
  | append_singleton calls call ih =>
    obtain ⟨hold, hcall⟩ : .reset ∉ calls ∧ call ≠ .reset := by
      simpa [eq_comm] using hcalls
    obtain ⟨hbefore, hsame⟩ := ih hold
    rw [run_append_singleton]
    cases call with
    | update t =>
      have htick := fallback_tick (h.run calls) t
      rw [hbefore, hsame] at htick
      refine ⟨(acknowledged_tick (h.run calls) t).trans hbefore, ?_⟩
      rw [step, Bool.eq_iff_iff, htick]
      simp
    | acknowledge => exact ⟨rfl, hsame⟩
    | reset => exact absurd rfl hcall

/-- A tick reports that the publisher was given up exactly if, in this tick or an earlier one of the
subscription, a cap was in force, nothing had been acknowledged, and the first request of the episode
was at least as old as the timeout. What was reported once is reported until the next subscription,
and an acknowledgement leaves the flag as it is for good: one that is not set is never set any more,
and one that is set is not cleared. -/
theorem run_fallback_iff (config : Config) (calls : List Call) (t : Tick) :
    let start := ofConfig config
    let e := start.run calls
    let reported := (e.update t.sample t.identity t.now).value.2.fallback
    (reported = true ↔ ∃ before s after,
      sinceReset calls ++ [.update t] = before ++ .update s :: after ∧ MissesAck config before s) ∧
    (∀ before after, sinceReset calls = before ++ after → (start.run before).fallback = true →
      reported = true) ∧
    ∀ before after, sinceReset calls = before ++ .acknowledge :: after →
      reported = (start.run before).fallback := by
  intro start e reported
  have hcoherent := isCoherent_ofConfig config
  have hnone : .reset ∉ sinceReset calls ++ [.update t] := by
    simpa using reset_notMem_sinceReset calls
  have hreported : reported = (start.run (sinceReset calls ++ [.update t])).fallback := by
    rw [run_append_singleton, run_sinceReset]
    exact decision_fallback e t
  refine ⟨?_, fun before after hsplit hset => ?_, fun before after hsplit => ?_⟩
  · rw [hreported]
    exact fallback_run_iff config hnone
  · rw [hsplit, List.append_assoc] at hnone hreported
    rw [hreported, run_append]
    refine fallback_run_of_fallback (hcoherent.run before) hset fun hmem => ?_
    exact hnone (List.mem_append_right before hmem)
  · -- What follows the acknowledgement is the rest of the subscription and this tick.
    have hafter : sinceReset calls ++ [.update t] =
        (before ++ [.acknowledge]) ++ (after ++ [.update t]) := by simp [hsplit]
    rw [hafter] at hnone hreported
    rw [hreported, run_append, run_append_singleton start before]
    have hack : ((start.run before).step .acknowledge).acknowledged = true := rfl
    refine (fallback_run_of_acknowledged ((hcoherent.run before).step _) hack fun hmem => ?_).2
    exact hnone (List.mem_append_right _ hmem)

/-- With the usual settings, ten seconds of congestion without an answer are enough. -/
example :
    let congested (now : Time) : Tick := ⟨⟨50, .mega 4⟩, "receiver", now⟩
    let e := (ofConfig {}).run [.update (congested 0), .update (congested 5000)]
    (e.tick (congested 9999)).2.fallback = false ∧
      (e.tick (congested 10000)).2.fallback = true := by
  decide +kernel

end Simulcast.Estimator
