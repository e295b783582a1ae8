import Simulcast.Proofs.Estimator.Acknowledgement

/-!
# What an estimator forgets

The tick that takes caps back ends an episode, and with it almost everything that the estimator knew.
What is left behind is the count of ticks without congestion, which is one after such a tick, and the two
flags about the publisher. The count is never looked at before it is set to zero again. So the estimator
decides from then on as if the subscription had just begun, except that it may report the publisher as
given up, or never come to do so.

The proof compares two estimators that differ in nothing but the count and the flags. They are of the
same kind in every tick, since that depends on the averages alone, and each of the three kinds leaves them
in the same relation.

## Main definitions

* `Estimator.decisions` — what the ticks among some operations lead to
* `Estimator.Resembles` — the same in all but the count and the flags
* `Decision.aboutCaps` — a decision without the flag about the publisher

## Main results

* `Estimator.map_decisions_eq` — what a relation between two estimators makes the same in every tick
* `Estimator.Resembles.tick`, `Estimator.Resembles.step` — two estimators that resemble each other go on
  to do so
* `Estimator.run_restored_like_new` — all decisions after caps were taken back
-/

namespace Simulcast

/-- What a decision says about caps, and nothing about whether the publisher answers. -/
def Decision.aboutCaps (d : Decision) : Option CapRequest × Bool × Bitrate × Bool :=
  (d.outbound, d.lockHigh, d.capHigh, d.capped)

theorem Decision.eq_of_aboutCaps {d d' : Decision} (hcaps : d.aboutCaps = d'.aboutCaps)
    (hfallback : d.fallback = d'.fallback) : d = d' := by
  obtain ⟨outbound, lockHigh, fallback, capHigh, capped⟩ := d
  simp only [aboutCaps, Prod.mk.injEq] at hcaps hfallback
  obtain ⟨rfl, rfl, rfl, rfl⟩ := hcaps
  rw [hfallback]

namespace Estimator

variable {e f : Estimator} {config : Config} {calls : List Call}

/-! ### The decisions of some operations -/

/-- What an operation leads to, if it is a tick. -/
def decision? (e : Estimator) : Call → Option Decision
  | .update t => some (e.tick t).2
  | _ => none

/-- What the ticks among some operations lead to, in order. -/
def decisions (e : Estimator) : List Call → List Decision
  | [] => []
  | call :: calls => (e.decision? call).toList ++ (e.step call).decisions calls

theorem decisions_append_singleton (e : Estimator) (calls : List Call) (call : Call) :
    e.decisions (calls ++ [call]) = e.decisions calls ++ ((e.run calls).decision? call).toList := by
  induction calls generalizing e with
  | nil => simp [decisions, run]
  | cons first calls ih =>
    rw [List.cons_append, decisions, ih, decisions, List.append_assoc]
    rfl

/-- What a tick says about the publisher is what the estimator remembers after it. -/
theorem exists_run_of_mem_decisions (hcalls : .reset ∉ calls) {d : Decision}
    (hd : d ∈ e.decisions calls) :
    ∃ before, .reset ∉ before ∧ d.fallback = (e.run before).fallback := by
  induction calls using List.reverseRecOn with
  | nil => cases hd
  | append_singleton calls call ih =>
    obtain ⟨hold, -⟩ : .reset ∉ calls ∧ call ≠ .reset := by
      simpa [eq_comm] using hcalls
    rw [decisions_append_singleton] at hd
    rcases List.mem_append.1 hd with hearlier | hnew
    · exact ih hold hearlier
    · cases call with
      | update t =>
        refine ⟨calls ++ [.update t], hcalls, ?_⟩
        rw [List.mem_singleton.1 hnew, decision_fallback, run_append_singleton]
        rfl
      | acknowledge => cases hnew
      | reset => cases hnew

/-- The flag after some operations is set exactly if it was set before or one of them reported it. -/
theorem fallback_run_iff_decisions (h : e.IsCoherent) (hcalls : .reset ∉ calls) :
    (e.run calls).fallback = true ↔
      e.fallback = true ∨ ∃ d ∈ e.decisions calls, d.fallback = true := by
  induction calls using List.reverseRecOn with
  | nil => simp [run, decisions]
  | append_singleton calls call ih =>
    obtain ⟨hold, hcall⟩ : .reset ∉ calls ∧ call ≠ .reset := by
      simpa [eq_comm] using hcalls
    rw [run_append_singleton, decisions_append_singleton]
    cases call with
    | update t =>
      have hkept : (e.run calls).fallback = true → ((e.run calls).tick t).1.fallback = true :=
        fun hset => (fallback_tick (h.run calls) t).2 (Or.inl hset)
      rw [ih hold] at hkept
      simp only [step, decision?, Option.toList_some, List.mem_append, List.mem_singleton,
        or_and_right, exists_or, exists_eq_left, decision_fallback, ← or_assoc]
      exact ⟨Or.inr, fun hany => hany.elim hkept id⟩
    | acknowledge =>
      have hnone : (e.run calls).decision? .acknowledge = none := rfl
      rw [hnone, Option.toList_none, List.append_nil]
      exact ih hold
    | reset => exact absurd rfl hcall

/-- Estimators in a relation that the operations of a subscription preserve decide alike in whatever
the relation makes the same for one tick. -/
theorem map_decisions_eq {β : Type} (related : Estimator → Estimator → Prop) (part : Decision → β)
    (hstep : ∀ {e f : Estimator} {call : Call}, related e f → call ≠ .reset →
      related (e.step call) (f.step call))
    (htick : ∀ {e f : Estimator} (t : Tick), related e f → part (e.tick t).2 = part (f.tick t).2)
    (h : related e f) (hcalls : .reset ∉ calls) :
    (e.decisions calls).map part = (f.decisions calls).map part := by
  induction calls generalizing e f with
  | nil => rfl
  | cons call calls ih =>
    obtain ⟨hcall, hrest⟩ : call ≠ .reset ∧ .reset ∉ calls := by
      simpa [eq_comm] using hcalls
    have hlater := ih (hstep h hcall) hrest
    rw [decisions, decisions, List.map_append, List.map_append, hlater]
    cases call with
    | update t => simp only [decision?, Option.toList_some, List.map_cons, List.map_nil, htick t h]
    | acknowledge => rfl
    | reset => exact absurd rfl hcall

/-! ### Estimators that resemble each other -/

/-- The two estimators agree in everything that decides about caps, once the phase is left out, which
follows from the rest. -/
structure Resembles (e f : Estimator) : Prop where
  config_eq : e.config = f.config
  history_eq : e.history = f.history
  capHigh_eq : e.capHigh = f.capHigh
  capped_eq : e.capped = f.capped
  lastRequest_eq : e.lastRequest = f.lastRequest
  firstRequest_eq : e.firstRequest = f.firstRequest

theorem Resembles.assessed_eq (h : e.Resembles f) (sample : InboundSample) :
    e.assessed sample = f.assessed sample := by
  rw [assessed, assessed, h.config_eq, h.history_eq]

/-- A tick is of the same kind for both, says the same about caps, and leaves them alike. -/
theorem Resembles.tick (h : e.Resembles f) (he : e.IsCoherent) (hf : f.IsCoherent) (t : Tick) :
    (e.tick t).1.Resembles (f.tick t).1 ∧ (e.tick t).2.aboutCaps = (f.tick t).2.aboutCaps := by
  -- The averages are the same for both, and they alone decide which kind of tick this is.
  have hsame := h.assessed_eq t.sample
  obtain ⟨hconfig, hhistory, hcap, hcapped, hlast, hfirst⟩ := h
  cases hcongested : (f.assessed t.sample).congested with
  | true =>
    have hdue : e.isDue t.now = f.isDue t.now := by rw [isDue, isDue, hlast, hconfig]
    have hlowered : e.loweredCap (f.assessed t.sample) = f.loweredCap (f.assessed t.sample) := by
      rw [loweredCap, loweredCap, hcap, hcapped, hconfig]
    rw [tick_of_congested (hsame ▸ hcongested), tick_of_congested hcongested, hsame, hdue, hlowered,
      hhistory, hfirst]
    -- Both ask, or neither of them does.
    cases f.isDue t.now with
    | true => exact ⟨⟨hconfig, rfl, rfl, rfl, rfl, rfl⟩, rfl⟩
    | false => exact ⟨⟨hconfig, rfl, rfl, rfl, hlast, rfl⟩, rfl⟩
  | false =>
    cases hbefore : f.capped with
    | true =>
      rw [he.tick_of_relieved (hsame ▸ hcongested) (hcapped.trans hbefore),
        hf.tick_of_relieved hcongested hbefore, hconfig]
      exact ⟨⟨rfl, rfl, rfl, rfl, rfl, rfl⟩, rfl⟩
    | false =>
      rw [he.tick_of_quiet (hsame ▸ hcongested) (hcapped.trans hbefore),
        hf.tick_of_quiet hcongested hbefore, hconfig, hhistory]
      exact ⟨⟨rfl, rfl, hcap, hcapped, hlast, hfirst⟩, rfl⟩

/-- If in addition the flags were the same, then the tick decides the same in every respect. -/
theorem Resembles.decision_eq (h : e.Resembles f) (he : e.IsCoherent) (hf : f.IsCoherent)
    (hack : e.acknowledged = f.acknowledged) (hfallback : e.fallback = f.fallback) (t : Tick) :
    (e.tick t).2 = (f.tick t).2 := by
  obtain ⟨hafter, hcaps⟩ := h.tick he hf t
  refine Decision.eq_of_aboutCaps hcaps ?_
  rw [decision_fallback, decision_fallback, Bool.eq_iff_iff, fallback_tick he, fallback_tick hf, hack,
    hfallback, hafter.capped_eq, hafter.firstRequest_eq, h.config_eq]

theorem Resembles.step (h : e.Resembles f) (he : e.IsCoherent) (hf : f.IsCoherent) {call : Call}
    (hcall : call ≠ .reset) : (e.step call).Resembles (f.step call) := by
  cases call with
  | update t => exact (h.tick he hf t).1
  | acknowledge =>
    exact ⟨h.config_eq, h.history_eq, h.capHigh_eq, h.capped_eq, h.lastRequest_eq, h.firstRequest_eq⟩
  | reset => exact absurd rfl hcall

/-- Whatever follows, both say the same about caps. -/
theorem Resembles.aboutCaps_decisions (h : e.Resembles f) (he : e.IsCoherent) (hf : f.IsCoherent)
    (hcalls : .reset ∉ calls) :
    (e.decisions calls).map Decision.aboutCaps = (f.decisions calls).map Decision.aboutCaps := by
  refine map_decisions_eq (fun e f => e.Resembles f ∧ e.IsCoherent ∧ f.IsCoherent) _ ?_ ?_
    ⟨h, he, hf⟩ hcalls
  · rintro e f call ⟨h, he, hf⟩ hcall
    exact ⟨h.step he hf hcall, he.step call, hf.step call⟩
  · rintro e f t ⟨h, he, hf⟩
    exact (h.tick he hf t).2

/-- With the same flags, both decide the same whatever follows. -/
theorem Resembles.decisions_eq (h : e.Resembles f) (he : e.IsCoherent) (hf : f.IsCoherent)
    (hack : e.acknowledged = f.acknowledged) (hfallback : e.fallback = f.fallback)
    (hcalls : .reset ∉ calls) : e.decisions calls = f.decisions calls := by
  have hmap := map_decisions_eq (fun e f => e.Resembles f ∧ e.IsCoherent ∧
    f.IsCoherent ∧ e.acknowledged = f.acknowledged ∧ e.fallback = f.fallback) id ?_ ?_
      ⟨h, he, hf, hack, hfallback⟩ hcalls
  · rwa [List.map_id, List.map_id] at hmap
  · rintro e f call ⟨h, he, hf, hack, hfallback⟩ hcall
    refine ⟨h.step he hf hcall, he.step call, hf.step call, ?_⟩
    cases call with
    | update t =>
      constructor
      · rw [Estimator.step, Estimator.step, acknowledged_tick he, acknowledged_tick hf, hack]
      · rw [Estimator.step, Estimator.step, ← decision_fallback, ← decision_fallback,
          h.decision_eq he hf hack hfallback t]
    | acknowledge => exact ⟨rfl, hfallback⟩
    | reset => exact absurd rfl hcall
  · rintro e f t ⟨h, he, hf, hack, hfallback⟩
    exact h.decision_eq he hf hack hfallback t

/-! ### After caps were taken back -/

/-- Caps are taken back in a tick without congestion, and only if there is a cap. -/
theorem IsCoherent.relieved_of_restore (h : e.IsCoherent) {t : Tick}
    (hrestore : (e.tick t).2.outbound.map CapRequest.reason = some .restore) :
    (e.assessed t.sample).congested = false ∧ e.capped = true := by
  cases hcongested : (e.assessed t.sample).congested with
  | true =>
    -- Under congestion a request gives congestion as its reason.
    obtain ⟨r, hr, hreason⟩ := Option.map_eq_some_iff.1 hrestore
    obtain rfl := outbound_of_congested hcongested hr
    exact absurd hreason (ask_reason_ne_restore _ _ _ _)
  | false =>
    cases hcapped : e.capped with
    | true => exact ⟨rfl, rfl⟩
    | false =>
      rw [h.tick_of_quiet hcongested hcapped] at hrestore
      cases hrestore

/-- After caps were taken back, an estimator resembles a new one. -/
theorem IsCoherent.resembles_of_restore (h : e.IsCoherent) {t : Tick}
    (hrestore : (e.tick t).2.outbound.map CapRequest.reason = some .restore) :
    (e.tick t).1.Resembles (ofConfig e.config) := by
  obtain ⟨hclear, hcapped⟩ := h.relieved_of_restore hrestore
  rw [h.tick_of_relieved hclear hcapped]
  exact ⟨rfl, rfl, rfl, rfl, rfl, rfl⟩

/-- A flag that is set is reported by every later tick. -/
theorem fallback_of_mem_decisions (h : e.IsCoherent) (hset : e.fallback = true)
    (hcalls : .reset ∉ calls) : ∀ d ∈ e.decisions calls, d.fallback = true := by
  intro d hd
  obtain ⟨before, hbefore, hflag⟩ := exists_run_of_mem_decisions hcalls hd
  rw [hflag]
  exact fallback_run_of_fallback h hset hbefore

/-- A flag that is not set when the publisher has answered is never reported. -/
theorem not_fallback_of_mem_decisions (h : e.IsCoherent) (hack : e.acknowledged = true)
    (hunset : e.fallback = false) (hcalls : .reset ∉ calls) :
    ∀ d ∈ e.decisions calls, d.fallback = false := by
  intro d hd
  obtain ⟨before, hbefore, hflag⟩ := exists_run_of_mem_decisions hcalls hd
  rw [hflag, (fallback_run_of_acknowledged h hack hbefore).2, hunset]

/-- A tick that takes caps back leaves an estimator that says the same about caps as a new one, whatever
follows. If in the subscription up to then the publisher neither answered nor was reported as given up,
the two decide the same in every respect. If it was given up, this is reported by every later tick, and if
it only answered, by none. A new subscription leaves nothing of all that came before. -/
theorem run_restored_like_new (config : Config) {before : List Call} {t : Tick}
    (hrestore : (((ofConfig config).run before).tick t).2.outbound.map CapRequest.reason =
      some .restore) (hcalls : .reset ∉ calls) :
    let new := ofConfig config
    let past := sinceReset (before ++ [.update t])
    let restored := new.run (before ++ [.update t])
    let answered := .acknowledge ∈ past
    let givenUp := ∃ d ∈ new.decisions past, d.fallback = true
    (restored.decisions calls).map Decision.aboutCaps =
        (new.decisions calls).map Decision.aboutCaps ∧
      (¬ answered → ¬ givenUp → restored.decisions calls = new.decisions calls) ∧
      (givenUp → ∀ d ∈ restored.decisions calls, d.fallback = true) ∧
      (answered → ¬ givenUp → ∀ d ∈ restored.decisions calls, d.fallback = false) ∧
      ∀ earlier later, (new.run (earlier ++ [.reset])).decisions later = new.decisions later := by
  intro new past restored answered givenUp
  have hnew : new.IsCoherent := isCoherent_ofConfig config
  have hrestored : restored.IsCoherent := hnew.run _
  have hresembles : restored.Resembles new := by
    have h := (hnew.run before).resembles_of_restore hrestore
    rw [run_config] at h
    simp only [restored, run_append_singleton]
    exact h
  -- Both flags tell what has happened in the current subscription.
  have hpast : .reset ∉ past := reset_notMem_sinceReset _
  have hsince : new.run past = restored := run_sinceReset config _
  have hanswered : restored.acknowledged = true ↔ answered := by
    rw [← hsince]
    exact acknowledged_run config hpast
  have hgivenUp : restored.fallback = true ↔ givenUp := by
    rw [← hsince, fallback_run_iff_decisions hnew hpast]
    exact ⟨fun h => h.resolve_left Bool.false_ne_true, Or.inr⟩
  rw [← hanswered, ← hgivenUp, Bool.not_eq_true, Bool.not_eq_true]
  refine ⟨hresembles.aboutCaps_decisions hrestored hnew hcalls, fun hack hfallback => ?_,
    fun hset => fallback_of_mem_decisions hrestored hset hcalls,
    fun hack hunset => not_fallback_of_mem_decisions hrestored hack hunset hcalls,
    fun earlier later => ?_⟩
  · exact hresembles.decisions_eq hrestored hnew hack hfallback hcalls
  · have hreset : new.run (earlier ++ [.reset]) = new := by
      rw [run_append_singleton, step, reset, run_config]
      rfl
    rw [hreset]

/-- A publisher that let ten seconds of congestion pass is reported in the next congestion from its first
tick on, although everything else is as in the first one. -/
theorem given_up_in_next_congestion :
    let tick (lost : Nat) (now : Time) : Tick := ⟨⟨lost, .mega 4⟩, "receiver", now⟩
    let before : List Call := [.update (tick 50 0), .update (tick 50 10000), .acknowledge]
    let restored := (ofConfig {}).run (before ++ [.update (tick 0 11000)])
    let calls : List Call := [.update (tick 50 11500)]
    (((ofConfig {}).run before).tick (tick 0 11000)).2.outbound.map CapRequest.reason =
        some .restore ∧
      .reset ∉ calls ∧
      (restored.decisions calls).map Decision.aboutCaps =
        ((ofConfig {}).decisions calls).map Decision.aboutCaps ∧
      ((ofConfig {}).decisions calls).map Decision.fallback = [false] ∧
      ∀ d ∈ restored.decisions calls, d.fallback = true := by
  intro tick before restored calls
  have hrestore : (((ofConfig {}).run before).tick (tick 0 11000)).2.outbound.map
      CapRequest.reason = some .restore := by decide +kernel
  have hcalls : .reset ∉ calls := by decide
  have hreported : ∃ d ∈ (ofConfig {}).decisions (sinceReset (before ++ [.update (tick 0 11000)])),
      d.fallback = true := by decide +kernel
  have hunreported : ((ofConfig {}).decisions calls).map Decision.fallback = [false] := by
    decide +kernel
  obtain ⟨hcaps, -, hgivenUp, -⟩ := run_restored_like_new {} hrestore hcalls
  exact ⟨hrestore, hcalls, hcaps, hunreported, hgivenUp hreported⟩

end Estimator

end Simulcast
