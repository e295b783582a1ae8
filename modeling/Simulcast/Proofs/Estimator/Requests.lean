import Simulcast.Proofs.Estimator.Calls

/-!
# What an estimator asks for

The requests of an estimator come in episodes. An episode begins with the congested tick that puts a
cap in force, which asks for it at once. As long as the congestion lasts, later ticks ask again when
the interval has passed since they last did. The tick that ends the congestion takes the cap back,
and with that the episode is over. In between nothing is asked for.

What an estimator remembers of all this is when it asked first and last in the current episode. That
is enough to decide about every later request, so whoever knows the requests can tell what a tick
will ask for from the loss alone.

## Main definitions

* `Estimator.Sent`, `Estimator.requests` — the requests of some operations
* `Estimator.Episode` — requests for caps, and the one that takes them back
* `Estimator.Remembers` — the requests are past episodes and the current one, and what the estimator
  knows of them

## Main results

* `Estimator.Remembers.step_cases` — what an operation adds to the requests
* `Estimator.run_requests_iff` — what is asked for in a tick after any operations
-/

namespace Simulcast.Estimator

variable {e : Estimator} {now : Time}

/-! ### The requests of some operations -/

/-- A request, and when it was made. -/
structure Sent where
  time : Time
  request : CapRequest
  deriving DecidableEq

/-- The request that an operation leads to, if there is one. -/
def request? (e : Estimator) : Call → Option Sent
  | .update t => (e.tick t).2.outbound.map fun r => ⟨t.now, r⟩
  | _ => none

/-- The requests that some operations lead to, in order. -/
def requests (e : Estimator) : List Call → List Sent
  | [] => []
  | call :: calls => (e.request? call).toList ++ (e.step call).requests calls

theorem requests_append_singleton (e : Estimator) (calls : List Call) (call : Call) :
    e.requests (calls ++ [call]) = e.requests calls ++ ((e.run calls).request? call).toList := by
  induction calls generalizing e with
  | nil => simp [requests, run]
  | cons first calls ih =>
    rw [List.cons_append, requests, ih, requests, List.append_assoc]
    rfl

/-! ### Episodes -/

/-- The requests of one congestion: one or more for caps, and one that takes the caps back. -/
structure Episode where
  asks : List Sent
  restore : Sent
  asks_ne_nil : asks ≠ []
  reason_of_mem_asks : ∀ s ∈ asks, s.request.reason ≠ .restore
  reason_restore : restore.request.reason = .restore

/-- The requests of an episode, in order. -/
def Episode.requests (episode : Episode) : List Sent := episode.asks ++ [episode.restore]

/-- The requests so far are those of some past episodes, followed by those of the current one. There
is a current one exactly if the estimator is capped, and the estimator knows when it began and when
caps were last asked for. -/
structure Remembers (e : Estimator) (sent : List Sent) (past : List Episode)
    (current : List Sent) : Prop where
  sent_eq : sent = past.flatMap Episode.requests ++ current
  reason_of_mem : ∀ s ∈ current, s.request.reason ≠ .restore
  capped_iff : e.capped = true ↔ current ≠ []
  lastRequest : e.lastRequest = current.getLast?.map Sent.time
  firstRequest : e.firstRequest = current.head?.map Sent.time

variable {sent current : List Sent} {past : List Episode}

theorem remembers_ofConfig (config : Config) : (ofConfig config).Remembers [] [] [] where
  sent_eq := rfl
  reason_of_mem s hs := by cases hs
  capped_iff := by simp [ofConfig]
  lastRequest := rfl
  firstRequest := rfl

/-- It is time to ask at the beginning of an episode, and when the interval has passed since caps
were last asked for in it. -/
theorem Remembers.isDue_iff (h : e.Remembers sent past current) (now : Time) :
    e.isDue now = true ↔ e.capped = false ∨
      ∃ s, current.getLast? = some s ∧ e.config.interval ≤ Time.since now s.time := by
  unfold isDue
  rw [h.lastRequest]
  cases hlast : current.getLast? with
  | none =>
    have hcapped : e.capped = false := by
      rw [Bool.eq_false_iff, Ne, h.capped_iff, not_not]
      exact List.getLast?_eq_none_iff.1 hlast
    exact iff_of_true rfl (Or.inl hcapped)
  | some s =>
    have hcapped : e.capped = true := by
      rw [h.capped_iff]
      rintro rfl
      cases hlast
    simp [hcapped]

/-- Caps are asked for, at the beginning of an episode or later in it. -/
theorem Remembers.ask (h : e.Remembers sent past current) {s : Sent} {after : Estimator}
    (hreason : s.request.reason ≠ .restore) (hcapped : after.capped = true)
    (hlast : after.lastRequest = some s.time)
    (hfirst : after.firstRequest = some (e.firstRequest.getD s.time)) :
    after.Remembers (sent ++ [s]) past (current ++ [s]) where
  sent_eq := by rw [h.sent_eq, List.append_assoc]
  reason_of_mem r hr := by
    rcases List.mem_append.1 hr with hold | hnew
    · exact h.reason_of_mem r hold
    · rw [List.mem_singleton.1 hnew]
      exact hreason
  capped_iff := by simp [hcapped]
  lastRequest := by simp [hlast]
  firstRequest := by
    rw [hfirst, h.firstRequest]
    cases current <;> rfl

/-- Caps are taken back, which ends the episode. -/
theorem Remembers.takeBack (h : e.Remembers sent past current) {s : Sent} {after : Estimator}
    (hbefore : e.capped = true) (hreason : s.request.reason = .restore)
    (hcapped : after.capped = false) (hlast : after.lastRequest = none)
    (hfirst : after.firstRequest = none) :
    after.Remembers (sent ++ [s])
      (past ++ [⟨current, s, h.capped_iff.1 hbefore, h.reason_of_mem, hreason⟩]) [] where
  sent_eq := by simp [h.sent_eq, Episode.requests]
  reason_of_mem := by simp
  capped_iff := by simp [hcapped]
  lastRequest := hlast
  firstRequest := hfirst

/-- What a congested tick asks for is not to take caps back. -/
theorem ask_reason_ne_restore (caps : Caps) (severe : Bool) (loss : Binary64) (identity : String) :
    (CapRequest.ofCaps caps (if severe then .severe else .congestion) loss identity).reason ≠
      .restore := by
  cases severe <;> simp [CapRequest.ofCaps]

/-- An operation adds nothing to the requests, or continues the current episode, or ends it. -/
theorem Remembers.step_cases (h : e.Remembers sent past current) (hcoherent : e.IsCoherent)
    {call : Call} (hcall : call ≠ .reset) :
    (e.request? call = none ∧ (e.step call).Remembers sent past current) ∨
      (∃ s, e.request? call = some s ∧ s.request.reason ≠ .restore ∧
        (∀ last, current.getLast? = some last →
          e.config.interval ≤ Time.since s.time last.time) ∧
        (e.step call).Remembers (sent ++ [s]) past (current ++ [s])) ∨
      ∃ s episode, e.request? call = some s ∧ s.request.reason = .restore ∧
        (e.step call).Remembers (sent ++ [s]) (past ++ [episode]) [] := by
  cases call with
  | reset => exact absurd rfl hcall
  | acknowledge =>
    exact Or.inl ⟨rfl, h.sent_eq, h.reason_of_mem, h.capped_iff, h.lastRequest, h.firstRequest⟩
  | update t =>
    rw [request?, step]
    cases hcongested : (e.assessed t.sample).congested with
    | true =>
      rw [tick_of_congested hcongested]
      by_cases hdue : e.isDue t.now = true
      · simp only [hdue, if_true]
        refine Or.inr (Or.inl ⟨_, rfl, ask_reason_ne_restore _ _ _ _, fun last hlast => ?_,
          h.ask (ask_reason_ne_restore _ _ _ _) rfl rfl rfl⟩)
        -- There is a last one, so the interval has passed since then.
        rcases (h.isDue_iff t.now).1 hdue with hcapped | ⟨s, hs, hinterval⟩
        · rw [Bool.eq_false_iff, Ne, h.capped_iff, not_not] at hcapped
          rw [hcapped] at hlast
          cases hlast
        · obtain rfl := Option.some.inj (hs.symm.trans hlast)
          exact hinterval
      · simp only [hdue]
        refine Or.inl ⟨rfl, h.sent_eq, h.reason_of_mem, ?_, h.lastRequest, h.firstRequest⟩
        have hcapped : e.capped = true := by
          by_contra hcapped
          exact hdue (hcoherent.isDue_of_uncapped (Bool.eq_false_iff.2 hcapped) t.now)
        exact iff_of_true rfl (h.capped_iff.1 hcapped)
    | false =>
      cases hcapped : e.capped with
      | true =>
        rw [hcoherent.tick_of_relieved hcongested hcapped]
        exact Or.inr (Or.inr ⟨_, _, rfl, rfl, h.takeBack hcapped rfl rfl rfl rfl⟩)
      | false =>
        rw [hcoherent.tick_of_quiet hcongested hcapped]
        refine Or.inl ⟨rfl, h.sent_eq, h.reason_of_mem, ?_, h.lastRequest, h.firstRequest⟩
        exact h.capped_iff

/-! ### All operations -/

/-- As long as there is no new subscription, all requests belong to episodes. -/
theorem exists_remembers (config : Config) {calls : List Call} (hcalls : .reset ∉ calls) :
    ∃ past current, ((ofConfig config).run calls).Remembers ((ofConfig config).requests calls)
      past current := by
  induction calls using List.reverseRecOn with
  | nil => exact ⟨[], [], remembers_ofConfig config⟩
  | append_singleton calls call ih =>
    obtain ⟨hold, hcall⟩ : .reset ∉ calls ∧ call ≠ .reset := by
      simpa [eq_comm] using hcalls
    obtain ⟨past, current, h⟩ := ih hold
    have hcoherent := (isCoherent_ofConfig config).run calls
    rw [run_append_singleton, requests_append_singleton]
    rcases h.step_cases hcoherent hcall with
      ⟨hnone, hnew⟩ | ⟨s, hs, -, -, hnew⟩ | ⟨s, episode, hs, -, hnew⟩
    · rw [hnone, Option.toList_none, List.append_nil]
      exact ⟨past, current, hnew⟩
    · rw [hs]
      exact ⟨past, current ++ [s], hnew⟩
    · rw [hs]
      exact ⟨past ++ [episode], [], hnew⟩

/-- Since the beginning of a subscription, the requests are those of some past episodes and of the
current one, which there is exactly if the estimator is capped. A tick takes the caps back exactly
if it is not congested while there is a cap. It asks for the cap that it returns exactly if it is
congested and either begins an episode or comes at least the interval after the last request of the
current one. It asks for nothing else. -/
theorem run_requests_iff (config : Config) {calls : List Call} (hcalls : .reset ∉ calls)
    (t : Tick) :
    let start := ofConfig config
    let e := start.run calls
    let a := assess config (e.history.push t.sample.measurement) t.sample.measurement.lost
    let decision := (e.update t.sample t.identity t.now).value.2
    let ceilings := config.ceilings
    let restore : CapRequest :=
      ⟨protocolVersion, ⟨some ceilings.high, some ceilings.medium, some ceilings.low⟩, .restore, 0,
        t.identity⟩
    let ask : CapRequest := .ofCaps (.ofHigh decision.capHigh)
      (if config.severeLoss < a.tickLoss then .severe else .congestion) (roundedLoss a.lossRate)
      t.identity
    ∃ (past : List Episode) (current : List Sent),
      start.requests calls = past.flatMap Episode.requests ++ current ∧
      (∀ s ∈ current, s.request.reason ≠ .restore) ∧ (e.capped = true ↔ current ≠ []) ∧
      (decision.outbound = some restore ↔
        ¬ config.congestionLoss < a.tickLoss ∧ e.capped = true) ∧
      (decision.outbound = some ask ↔ config.congestionLoss < a.tickLoss ∧
        (e.capped = false ∨
          ∃ s, current.getLast? = some s ∧ config.interval ≤ Time.since t.now s.time)) ∧
      (decision.outbound = none ∨ decision.outbound = some restore ∨
        decision.outbound = some ask) := by
  intro start e a decision ceilings restore ask
  obtain ⟨past, current, h⟩ := exists_remembers config hcalls
  have hcoherent : e.IsCoherent := (isCoherent_ofConfig config).run calls
  have hconfig : e.config = config := run_config _ _
  have ha : e.assessed t.sample = a := by rw [assessed, hconfig]
  have hcongested : a.congested = true ↔ config.congestionLoss < a.tickLoss := decide_eq_true_iff
  have hdue := h.isDue_iff t.now
  rw [hconfig] at hdue
  refine ⟨past, current, h.sent_eq, h.reason_of_mem, h.capped_iff, ?_⟩
  rw [← hcongested, ← hdue]
  have hne : restore ≠ ask := by
    intro heq
    have hreason : ask.reason = .restore := (congrArg CapRequest.reason heq).symm
    change (if config.severeLoss < a.tickLoss then Reason.severe else .congestion) = _ at hreason
    split at hreason <;> cases hreason
  have houtbound : decision.outbound =
      if a.congested then if e.isDue t.now then some ask else none
      else if e.capped then some restore else none := by
    have hdecision : decision = (e.tick t).2 := rfl
    cases hc : a.congested with
    | true =>
      have htick := tick_of_congested (ha.symm ▸ hc : (e.assessed t.sample).congested = true)
      have hcap : decision.capHigh = e.loweredCap a := by
        rw [hdecision, htick, ha]
      have hreason : (if a.severe then Reason.severe else .congestion) =
          if config.severeLoss < a.tickLoss then .severe else .congestion :=
        if_congr decide_eq_true_iff rfl rfl
      rw [hdecision, htick]
      simp only [ask, hcap, ha, hreason, if_true]
    | false =>
      cases hcapped : e.capped with
      | true =>
        have hzero : clampLoss 0 = 0 := by decide +kernel
        rw [hdecision, hcoherent.tick_of_relieved (ha ▸ hc) hcapped, hconfig]
        simp only [CapRequest.ofCaps, hzero]
        rfl
      | false =>
        rw [hdecision, hcoherent.tick_of_quiet (ha ▸ hc) hcapped]
        rfl
  rw [houtbound]
  cases a.congested <;> cases e.isDue t.now <;> cases e.capped <;> simp [hne, hne.symm]

/-- Under lasting congestion caps are asked for again exactly one interval later, and not a moment
before. An acknowledgement in between makes no difference. -/
theorem asks_again_after_interval :
    let congested (now : Time) : Tick := ⟨⟨50, .mega 4⟩, "receiver", now⟩
    let calls : List Call := [.update (congested 0), .acknowledge]
    let e := (ofConfig {}).run calls
    .reset ∉ calls ∧ (e.tick (congested 1999)).2.outbound = none ∧
      (e.tick (congested 2000)).2.outbound ≠ none := by
  intro congested calls e
  have hcalls : .reset ∉ calls := by decide
  have hcapped : e.capped = true := by decide +kernel
  have hearly : (e.tick (congested 1999)).2.outbound = none := by decide +kernel
  have htimes : ((ofConfig {}).requests calls).map Sent.time = [0] := by decide +kernel
  have hloss : ({} : Config).congestionLoss < (assess {} (e.history.push
      (congested 2000).sample.measurement) (congested 2000).sample.measurement.lost).tickLoss := by
    decide +kernel
  obtain ⟨past, current, hsent, -, hcurrent, -, hask, -⟩ :=
    run_requests_iff {} hcalls (congested 2000)
  -- From here on it only matters what is known of the state, not what it is.
  have he : e = (ofConfig {}).run calls := rfl
  rw [← he] at hcurrent hask
  clear_value e
  -- There was one request so far, and it belongs to the current episode.
  rw [hsent, List.map_append] at htimes
  rcases List.append_eq_singleton_iff.1 htimes with ⟨-, hfirst⟩ | ⟨-, hnone⟩
  · obtain ⟨s, rfl, hs⟩ := List.map_eq_singleton_iff.1 hfirst
    have hdue : ({} : Config).interval ≤ Time.since 2000 s.time := by
      rw [hs]
      exact Nat.le_refl 2000
    refine ⟨hcalls, hearly, ?_⟩
    rw [tick, hask.2 ⟨hloss, Or.inr ⟨s, rfl, hdue⟩⟩]
    exact Option.some_ne_none _
  · exact absurd (List.map_eq_nil_iff.1 hnone) (hcurrent.1 hcapped)

end Simulcast.Estimator
