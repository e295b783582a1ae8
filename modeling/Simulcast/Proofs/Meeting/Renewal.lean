import Simulcast.Proofs.Estimator.Calls
import Simulcast.Proofs.Meeting.Safety

/-!
# Caps that are renewed in time

A cap expires when its receiver does not renew it, and a receiver that is still congested must not lose
its cap in this way. It renews the cap in a tick, as soon as an interval has passed since it last did, so
that the next request may come as late as an interval and the distance of two ticks after the last one. If
this is within the lifetime, the cap stays alive as long as the congestion lasts, and for the distance of
two ticks after the last tick.

Both ends compare in the way that is needed for this. A request is made when exactly the interval has
passed, and an entry is dropped only when more than its lifetime has. The first tick of an episode asks in
any case, whatever was asked for in earlier ones.

The requests of the receiver reach the publisher at once. Meanwhile the publisher serves others and drops
what has expired. No order of the times is assumed beyond what is said of the distance to the last tick.

## Main definitions

* `Caps.IsIntegral` — ceilings without fractions, of any size
* `Link` — a receiver and a publisher with nothing between them
* `Link.Congested` — what can happen during a stretch of congested ticks
* `Link.IsRenewed` — what the publisher holds is the latest request, and it is not too old

## Main results

* `Link.IsRenewed.tick`, `Link.IsRenewed.serve` — what happens in a stretch leaves the cap renewed
* `Link.Congested.entry_alive` — the entry, its age and the cap in force at any moment of a stretch
-/

namespace Simulcast

/-- Finite caps without fractions. They may be of any size, and even negative. -/
def Caps.IsIntegral (c : Caps) : Prop := ∀ l, (c.get l).bps.IsInteger

theorem Caps.IsIntegral.isNumber {c : Caps} (h : c.IsIntegral) : c.IsNumber := fun l => (h l).ne_nan

theorem Caps.IsWhole.isIntegral {c : Caps} (h : c.IsWhole) : c.IsIntegral := by
  intro l
  obtain ⟨n, hn, hget⟩ := h l
  rw [hget]
  exact (Bitrate.isWhole_ofNat hn).isInteger

/-- A receiver whose requests reach the publisher at once. -/
structure Link where
  /-- The identity that the receiver signs its requests with. -/
  identity : String
  /-- Who it is according to the channel. -/
  source : String
  estimator : Estimator
  arbitrator : Arbitrator
  /-- When the receiver last ticked. -/
  ticked : Time
  /-- Its latest request. -/
  asked : Option CapRequest

/-- What was recent at some time is not much older a little later. -/
theorem Time.since_le_add {now ticked earlier interval distance : Time}
    (hrecent : Time.since ticked earlier ≤ interval) (hnow : now ≤ ticked + distance) :
    Time.since now earlier ≤ interval + distance := by
  have hthen : ticked ≤ interval + earlier := Nat.sub_le_iff_le_add.1 hrecent
  refine Nat.sub_le_iff_le_add.2 ?_
  calc now ≤ ticked + distance := hnow
    _ ≤ interval + earlier + distance := Nat.add_le_add_right hthen distance
    _ = interval + distance + earlier := Nat.add_right_comm interval earlier distance

namespace Link

open Estimator (Permits AsksFor)

variable {l : Link} {config : Config} {publisher : String} {distance now : Time}
  {sample : InboundSample} {call : Arbitrator.Call}

/-- The name under which the publisher keeps the requests of the receiver. -/
def key (l : Link) : String :=
  if l.source ≠ "" then l.source else if l.identity ≠ "" then l.identity else "unknown"

/-- A receiver and a publisher after any operations that each of them has seen so far. -/
def start (config : Config) (publisher identity source : String) (earlier : List Estimator.Call)
    (calls : List Arbitrator.Call) : Link where
  identity := identity
  source := source
  estimator := (Estimator.ofConfig config).run earlier
  arbitrator := (Arbitrator.ofConfig publisher config).run calls
  ticked := 0
  asked := none

/-- The receiver ticks, and what it asks for is taken in. -/
def tick (l : Link) (now : Time) (sample : InboundSample) : Link :=
  let (estimator, decision) := l.estimator.tick ⟨sample, l.identity, now⟩
  match decision.outbound with
  | none => { l with estimator, ticked := now }
  | some r =>
    { l with
      estimator, ticked := now, asked := some r
      arbitrator := l.arbitrator.step (.request r l.source now) }

/-- The publisher does something else. -/
def serve (l : Link) (call : Arbitrator.Call) : Link :=
  { l with arbitrator := l.arbitrator.step call }

/-- The receiver gets an acknowledgement. -/
def acknowledge (l : Link) : Link := { l with estimator := l.estimator.acknowledge }

/-- A tick with this sample is a congested one. -/
def IsCongestedBy (l : Link) (sample : InboundSample) : Prop :=
  (l.estimator.assessed sample).congested = true

instance (l : Link) (sample : InboundSample) : Decidable (l.IsCongestedBy sample) :=
  inferInstanceAs (Decidable ((l.estimator.assessed sample).congested = true))

/-- An operation that does not concern the receiver. Entries that have expired are dropped up to this
time only. -/
def Ignores (key : String) (latest : Time) : Arbitrator.Call → Prop
  | .request r source _ => Arbitrator.keyOf source r ≠ key
  | .cleanup now => now ≤ latest
  | .clear => False
  | .poll => True

instance (key : String) (latest : Time) : ∀ call, Decidable (Ignores key latest call)
  | .request r source _ => inferInstanceAs (Decidable (Arbitrator.keyOf source r ≠ key))
  | .cleanup now => inferInstanceAs (Decidable (now ≤ latest))
  | .clear => .isFalse id
  | .poll => .isTrue trivial

/-- What a stretch of congested ticks can lead to, with ticks that are no more than this distance apart.
It begins with the first tick of an episode, in any state of the receiver and of the publisher. -/
inductive Congested (config : Config) (publisher : String) (distance : Time) : Link → Prop where
  | first (identity source : String) (earlier : List Estimator.Call) (calls : List Arbitrator.Call)
      (now : Time) (sample : InboundSample)
      (huncapped : (start config publisher identity source earlier calls).estimator.capped = false)
      (hcongested : (start config publisher identity source earlier calls).IsCongestedBy sample) :
      Congested config publisher distance
        ((start config publisher identity source earlier calls).tick now sample)
  | tick {l : Link} (h : Congested config publisher distance l) (now : Time)
      (sample : InboundSample) (hsoon : now ≤ l.ticked + distance)
      (hcongested : l.IsCongestedBy sample) : Congested config publisher distance (l.tick now sample)
  | serve {l : Link} (h : Congested config publisher distance l) (call : Arbitrator.Call)
      (hcall : Ignores l.key (l.ticked + distance) call) :
      Congested config publisher distance (l.serve call)
  | acknowledge {l : Link} (h : Congested config publisher distance l) :
      Congested config publisher distance l.acknowledge

/-! ### Both ends -/

/-- The receiver and the publisher are in states that operations lead to. -/
structure IsReady (config : Config) (publisher : String) (l : Link) : Prop where
  isCoherent : l.estimator.IsCoherent
  isSound : l.estimator.IsSound
  config_eq : l.estimator.config = config
  tracks : ∃ calls, l.arbitrator.Tracks calls
  settings : l.arbitrator.IsOf publisher config

theorem isReady_start (hceilings : config.ceilings.IsIntegral) (publisher identity source : String)
    (earlier : List Estimator.Call) (calls : List Arbitrator.Call) :
    (start config publisher identity source earlier calls).IsReady config publisher where
  isCoherent := (Estimator.isCoherent_ofConfig config).run earlier
  isSound := Estimator.isSound_run (hceilings .high) earlier
  config_eq := Estimator.run_config _ earlier
  tracks := ⟨calls, Arbitrator.tracks_run publisher hceilings.isNumber calls⟩
  settings := Arbitrator.isOf_run publisher config calls

theorem IsReady.isInteger_ceiling (h : l.IsReady config publisher)
    (hceilings : config.ceilings.IsIntegral) :
    l.estimator.config.ceilings.high.bps.IsInteger := by
  rw [h.config_eq]
  exact hceilings .high

theorem IsReady.serve (h : l.IsReady config publisher) (call : Arbitrator.Call) :
    (l.serve call).IsReady config publisher where
  isCoherent := h.isCoherent
  isSound := h.isSound
  config_eq := h.config_eq
  tracks := by
    obtain ⟨calls, htracks⟩ := h.tracks
    exact ⟨_, htracks.step call⟩
  settings := h.settings.step call

theorem IsReady.acknowledge (h : l.IsReady config publisher) :
    l.acknowledge.IsReady config publisher where
  isCoherent := h.isCoherent.step .acknowledge
  isSound := ⟨h.isSound.permits, h.isSound.uncapped, h.isSound.capped⟩
  config_eq := h.config_eq
  tracks := h.tracks
  settings := h.settings

/-! ### A tick -/

/-- A tick that asks for nothing only changes the receiver. -/
theorem tick_of_none
    (h : (l.estimator.tick ⟨sample, l.identity, now⟩).2.outbound = none) :
    l.tick now sample = { l with
      estimator := (l.estimator.tick ⟨sample, l.identity, now⟩).1, ticked := now } := by
  simp only [tick, h]

/-- What a tick asks for is taken in. -/
theorem tick_of_some {r : CapRequest}
    (h : (l.estimator.tick ⟨sample, l.identity, now⟩).2.outbound = some r) :
    l.tick now sample = { l with
      estimator := (l.estimator.tick ⟨sample, l.identity, now⟩).1, ticked := now, asked := some r
      arbitrator := l.arbitrator.step (.request r l.source now) } := by
  simp only [tick, h]

theorem IsReady.tick (h : l.IsReady config publisher)
    (hceilings : config.ceilings.IsIntegral) (now : Time) (sample : InboundSample) :
    (l.tick now sample).IsReady config publisher := by
  have hcoherent := h.isCoherent.tick ⟨sample, l.identity, now⟩
  have hsound := h.isSound.update (h.isInteger_ceiling hceilings) sample l.identity now
  have hconfig := (Estimator.update_config _ sample l.identity now).trans h.config_eq
  cases hout : (l.estimator.tick ⟨sample, l.identity, now⟩).2.outbound with
  | none =>
    rw [tick_of_none hout]
    exact ⟨hcoherent, hsound, hconfig, h.tracks, h.settings⟩
  | some r =>
    have hserved := h.serve (.request r l.source now)
    rw [tick_of_some hout]
    exact ⟨hcoherent, hsound, hconfig, hserved.tracks, hserved.settings⟩

/-! ### The latest request -/

/-- The publisher holds what the receiver asked for last, which was this request for this cap of the high
layer at this time. At the last tick it was not older than the interval. -/
structure IsRenewed (config : Config) (r : CapRequest) (rate : Bitrate) (time : Time) (l : Link) :
    Prop where
  asked_eq : l.asked = some r
  lastRequest_eq : l.estimator.lastRequest = some time
  asksFor : AsksFor config.ceilings.high l.identity r rate
  permits : Permits config.ceilings.high rate
  get?_key : l.arbitrator.entries.get? l.key = some ⟨r.caps config.ceilings, time, r.reason⟩
  recent : Time.since l.ticked time ≤ config.interval

variable {r : CapRequest} {rate : Bitrate} {time : Time}

theorem keyOf_eq_key (h : r.identity = l.identity) : Arbitrator.keyOf l.source r = l.key := by
  rw [Arbitrator.keyOf, h, key]

/-- After a congested tick in which it is time to ask, the cap is renewed. -/
theorem IsReady.isRenewed_tick (h : l.IsReady config publisher)
    (hceilings : config.ceilings.IsIntegral) (hcongested : l.IsCongestedBy sample)
    (hdue : l.estimator.isDue now = true) :
    ∃ r rate time, (l.tick now sample).IsRenewed config r rate time := by
  have hceiling := h.isInteger_ceiling hceilings
  have hsound := h.isSound.update hceiling sample l.identity now
  have hconfig := (Estimator.update_config l.estimator sample l.identity now).trans h.config_eq
  rcases Estimator.request_of_congested (t := ⟨sample, l.identity, now⟩) hcongested with
    ⟨-, hlast, r, hout⟩ | ⟨hearly, -, -⟩
  · have hasks := h.isSound.asksFor_update hceiling hout
    have hpermits := hsound.permits
    rw [h.config_eq] at hasks
    rw [hconfig] at hpermits
    refine ⟨r, (l.estimator.update sample l.identity now).value.1.capHigh, now, ?_⟩
    rw [tick_of_some hout]
    refine ⟨rfl, hlast, hasks, hpermits, ?_, (Nat.sub_self now).trans_le (Nat.zero_le _)⟩
    change ((l.arbitrator.request r l.source now).value.1).entries.get? l.key = _
    rw [Arbitrator.get?_request, keyOf_eq_key hasks.identity_eq, if_pos rfl,
      h.settings.ceilings_eq]
  · rw [hdue] at hearly
    cases hearly

/-- A congested tick renews the cap, or it is too early for that. -/
theorem IsRenewed.tick (h : l.IsRenewed config r rate time) (hready : l.IsReady config publisher)
    (hceilings : config.ceilings.IsIntegral) (hcongested : l.IsCongestedBy sample) (now : Time) :
    ∃ r rate time, (l.tick now sample).IsRenewed config r rate time := by
  rcases Estimator.request_of_congested (t := ⟨sample, l.identity, now⟩) hcongested with
    ⟨hdue, -, -⟩ | ⟨hearly, hlast, hout⟩
  · exact hready.isRenewed_tick hceilings hcongested hdue
  · refine ⟨r, rate, time, ?_⟩
    have hrecent : Time.since now time < config.interval := by
      rw [← hready.config_eq]
      simpa [Estimator.isDue, h.lastRequest_eq] using hearly
    rw [tick_of_none hout]
    exact ⟨h.asked_eq, hlast.trans h.lastRequest_eq, h.asksFor, h.permits, h.get?_key, hrecent.le⟩

/-- What does not concern the receiver leaves its entry alone, if that can only expire later. -/
theorem IsRenewed.serve (h : l.IsRenewed config r rate time) (hready : l.IsReady config publisher)
    (hspan : config.interval + distance ≤ config.lifetime) {call : Arbitrator.Call}
    (hcall : Ignores l.key (l.ticked + distance) call) :
    (l.serve call).IsRenewed config r rate time := by
  have hspares : call.Spares l.arbitrator.lifetime l.key time := by
    rw [hready.settings.lifetime_eq]
    cases call with
    | request r source now => exact hcall
    | cleanup now => exact (Time.since_le_add h.recent hcall).trans hspan
    | clear => exact hcall
    | poll => trivial
  exact ⟨h.asked_eq, h.lastRequest_eq, h.asksFor, h.permits,
    (Arbitrator.get?_step call).2 (Or.inr ⟨h.get?_key, hspares⟩), h.recent⟩

/-! ### A stretch of congested ticks -/

theorem Congested.isReady (h : l.Congested config publisher distance)
    (hceilings : config.ceilings.IsIntegral) : l.IsReady config publisher := by
  induction h with
  | first identity source earlier calls now sample huncapped hcongested =>
    exact (isReady_start hceilings publisher identity source earlier calls).tick hceilings now sample
  | tick h now sample hsoon hcongested ih => exact ih.tick hceilings now sample
  | serve h call hcall ih => exact ih.serve call
  | acknowledge h ih => exact ih.acknowledge

theorem Congested.isRenewed (h : l.Congested config publisher distance)
    (hceilings : config.ceilings.IsIntegral)
    (hspan : config.interval + distance ≤ config.lifetime) :
    ∃ r rate time, l.IsRenewed config r rate time := by
  induction h with
  | first identity source earlier calls now sample huncapped hcongested =>
    -- Nothing is outstanding before the first tick of an episode, so it is time to ask.
    have hready := isReady_start hceilings publisher identity source earlier calls
    exact hready.isRenewed_tick hceilings hcongested
      (hready.isCoherent.isDue_of_uncapped huncapped now)
  | tick h now sample hsoon hcongested ih =>
    obtain ⟨r, rate, time, hrenewed⟩ := ih
    exact hrenewed.tick (h.isReady hceilings) hceilings hcongested now
  | serve h call hcall ih =>
    obtain ⟨r, rate, time, hrenewed⟩ := ih
    exact ⟨r, rate, time, hrenewed.serve (h.isReady hceilings) hspan hcall⟩
  | acknowledge h ih =>
    obtain ⟨r, rate, time, hrenewed⟩ := ih
    exact ⟨r, rate, time, hrenewed.asked_eq, hrenewed.lastRequest_eq, hrenewed.asksFor,
      hrenewed.permits, hrenewed.get?_key, hrenewed.recent⟩

/-- The interval and the distance of two ticks are together no more than the lifetime. Then the cap of a
receiver does not lapse while it is congested. At any moment, up to that distance after its last tick,
the publisher has an entry for it that says what its latest request asked for, this entry is no older
than the two together, and the cap of the high layer that is in force does not exceed what was asked
for. The ceilings may be any integers. -/
theorem Congested.entry_alive (hceilings : config.ceilings.IsIntegral)
    (hspan : config.interval + distance ≤ config.lifetime)
    (h : l.Congested config publisher distance) (hnow : now ≤ l.ticked + distance) :
    ∃ r rate e, l.asked = some r ∧ r.targets.high = some rate ∧
      l.arbitrator.entries.get? l.key = some e ∧ e.caps.high = rate ∧
      Time.since now e.arrival ≤ config.interval + distance ∧
      l.arbitrator.effective.high ≤ rate := by
  obtain ⟨r, rate, time, hrenewed⟩ := h.isRenewed hceilings hspan
  obtain ⟨calls, htracks⟩ := (h.isReady hceilings).tracks
  have hhigh : (r.caps config.ceilings).high = rate :=
    Caps.high_sanitize_of_permits (hceilings .high) hrenewed.permits hrenewed.asksFor.high
  refine ⟨r, rate, _, hrenewed.asked_eq, hrenewed.asksFor.high, hrenewed.get?_key, hhigh,
    Time.since_le_add hrenewed.recent hnow, ?_⟩
  rw [← hhigh]
  exact htracks.effective_spec.2.le _ (Or.inr ⟨l.key, _, hrenewed.get?_key, rfl⟩) .high

/-- Under a lifetime that is just long enough, a cap is still there when the interval and the distance of
two ticks have almost passed without a request, since the last tick came a moment too early for one. -/
theorem entry_alive_before_renewal :
    let config : Config := { lifetime := 3000 }
    let sample : InboundSample := ⟨50, .mega 4⟩
    let other : CapRequest := .ofCaps .floor .congestion 0 ""
    let fresh := start config "publisher" "viewer" "receiver-1" [] []
    let first := (fresh.tick 0 sample).acknowledge
    let served := first.serve (.request other "receiver-2" 500)
    let ticked := (served.tick 1000 sample).tick 1999 sample
    let l := ticked.serve (.cleanup 2999)
    config.ceilings.IsIntegral ∧ config.interval + 1000 ≤ config.lifetime ∧
      l.Congested config "publisher" 1000 ∧ 2999 ≤ l.ticked + 1000 ∧
      ∃ r rate e, l.asked = some r ∧ r.targets.high = some rate ∧
        l.arbitrator.entries.get? l.key = some e ∧ e.caps.high = rate ∧
        Time.since 2999 e.arrival ≤ config.interval + 1000 ∧
        l.arbitrator.effective.high ≤ rate := by
  intro config sample other fresh first served ticked l
  have hcongested : fresh.IsCongestedBy sample ∧ served.IsCongestedBy sample ∧
      (served.tick 1000 sample).IsCongestedBy sample := by decide +kernel
  have hticks : 1000 ≤ served.ticked + 1000 ∧
      1999 ≤ (served.tick 1000 sample).ticked + 1000 := by decide +kernel
  have hignored : Ignores first.key (first.ticked + 1000) (.request other "receiver-2" 500) ∧
      Ignores ticked.key (ticked.ticked + 1000) (.cleanup 2999) := by decide +kernel
  have hnow : 2999 ≤ l.ticked + 1000 := by decide +kernel
  have hfirst : first.Congested config "publisher" 1000 :=
    .acknowledge (.first "viewer" "receiver-1" [] [] 0 sample rfl hcongested.1)
  have hserved : served.Congested config "publisher" 1000 := hfirst.serve _ hignored.1
  have hticked : ticked.Congested config "publisher" 1000 :=
    (hserved.tick 1000 sample hticks.1 hcongested.2.1).tick 1999 sample hticks.2 hcongested.2.2
  have hl : l.Congested config "publisher" 1000 := hticked.serve _ hignored.2
  have hspan : config.interval + 1000 ≤ config.lifetime := by decide
  have hceilings : config.ceilings.IsIntegral := Caps.isWhole_standard.isIntegral
  exact ⟨hceilings, hspan, hl, hnow, hl.entry_alive hceilings hspan hnow⟩

/-- With ticks that are further apart the cap may lapse: the second tick comes just too early for a
request, and then the lifetime is over before the third. -/
example :
    let sample : InboundSample := ⟨50, .mega 4⟩
    let fresh := start { lifetime := 3000 } "publisher" "viewer" "receiver-1" [] []
    let l := ((fresh.tick 0 sample).tick 1999 sample).serve (.cleanup 3001)
    l.estimator.capped = true ∧ (l.arbitrator.entries.get? l.key).isNone = true := by
  decide +kernel

end Link

end Simulcast
