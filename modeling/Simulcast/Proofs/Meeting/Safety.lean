import Simulcast.Proofs.Meeting.Steps
import Simulcast.Proofs.Publisher.Limits

/-!
# Safety of the protocol between far apart participants

However long requests are on their way and in whatever order the participants act, the publisher holds
for each receiver exactly the cap that the receiver had when it sent its latest request that came in.
It holds nothing only before the first request of a receiver, or when the cap has expired.

What carries the proof is that a cap means the same everywhere. A receiver only has caps that survive
the wire and that a publisher with the same ceiling does not change, so that a letter still conveys its
cap whenever it is opened. The rest is what every step does to the entry of one receiver.

## Main definitions

* `Caps.IsWhole` — ceilings that are counts of bits per second
* `Meeting.LastDelivered` — the latest request of a receiver, and what has happened since
* `Meeting.Fits` — the entry of a receiver is what its latest request says
* `Meeting.IsSound` — what every step preserves

## Main results

* `Meeting.IsSound.step` — every step leaves a meeting sound
* `Meeting.run_safe` — entries, caps in force and acknowledgements after any steps
-/

namespace Simulcast

/-- Caps that are counts of bits per second. -/
def Caps.IsWhole (c : Caps) : Prop := ∀ l, ∃ n, n < powTwo 64 ∧ c.get l = .ofNat n

theorem Caps.IsWhole.high {c : Caps} (h : c.IsWhole) : c.high.bps.IsWhole := by
  obtain ⟨n, hn, hhigh⟩ := h .high
  change c.high = _ at hhigh
  rw [hhigh]
  exact Bitrate.isWhole_ofNat hn

theorem Caps.isWhole_standard : Caps.standard.IsWhole := by
  intro l
  cases l with
  | high => exact ⟨15000 * 1000, by decide, rfl⟩
  | medium => exact ⟨5000 * 1000, by decide, rfl⟩
  | low => exact ⟨1500 * 1000, by decide, rfl⟩

theorem Caps.IsWhole.isNumber {c : Caps} (h : c.IsWhole) : c.IsNumber := by
  intro l
  obtain ⟨n, hn, hget⟩ := h l
  rw [hget]
  exact (Bitrate.isWhole_ofNat hn).ne_nan

namespace Arbitrator

variable {a : Arbitrator}

/-- The strictest of whole caps is whole. -/
theorem isWhole_strictest (hceiling : a.ceilings.high.bps.IsWhole)
    (hentries : ∀ name e, a.entries.get? name = some e → e.caps.high.bps.IsWhole) :
    a.strictest.high.bps.IsWhole := by
  have hfold : ∀ (all : List Caps) (c : Caps), c.high.bps.IsWhole →
      (∀ d ∈ all, d.high.bps.IsWhole) → (all.foldl min c).high.bps.IsWhole := by
    intro all
    induction all with
    | nil => exact fun c hc _ => hc
    | cons d all ih =>
      intro c hc hall
      exact ih (min c d) (hc.min (hall d (by simp))) fun d hd => hall d (by simp [hd])
  rw [strictest, ← List.foldl_map]
  refine hfold _ _ hceiling fun d hd => ?_
  obtain ⟨name, e, he, rfl⟩ := (mem_map_caps_iff d).1 hd
  exact hentries name e he

/-- The cap of the high layer in force stays whole as long as the entries are. -/
theorem isWhole_applied_step (call : Call) (hceiling : a.ceilings.high.bps.IsWhole)
    (happlied : ∀ c, a.applied = some c → c.high.bps.IsWhole)
    (hentries : ∀ name e, (a.step call).entries.get? name = some e → e.caps.high.bps.IsWhole) :
    ∀ c, (a.step call).applied = some c → c.high.bps.IsWhole := by
  intro c hc
  -- Nothing comes into force but the strictest caps of the moment.
  rcases applied_step a call with hsame | hnone | hnew
  · exact happlied c (hsame.symm.trans hc)
  · rw [hnone] at hc
    cases hc
  · rw [hnew] at hc
    obtain rfl := Option.some.inj hc
    exact isWhole_strictest (by rwa [step_ceilings]) hentries

end Arbitrator

namespace Meeting

variable {σ ι : Type} {log : List (Event ι)} {i j : ι} {t now : Time} {cap applied : Bitrate}
  {later : List (Event ι)} {event : Event ι} {config : Config} {entry : Option CapEntry}

/-! ### What has happened to one receiver -/

/-- A request of the receiver came in. -/
def Event.Concerns (i : ι) : Event ι → Prop
  | .delivered j _ _ _ => j = i
  | .cleaned _ => False

/-- The latest request of the receiver that came in had this cap, and this has happened since. -/
def LastDelivered (log : List (Event ι)) (i : ι) (t : Time) (cap : Bitrate)
    (later : List (Event ι)) : Prop :=
  (∃ earlier applied, log = earlier ++ .delivered i t cap applied :: later) ∧
    ∀ event ∈ later, ¬ event.Concerns i

/-- What the publisher holds for a receiver is the cap of its latest request. It holds nothing only if
there is none or a tick came more than the lifetime after it. -/
structure Fits (config : Config) (log : List (Event ι)) (i : ι) (entry : Option CapEntry) :
    Prop where
  held : ∀ e, entry = some e → (∃ later, LastDelivered log i e.arrival e.caps.high later) ∧
    (e.reason = .restore → e.caps.high = config.ceilings.high)
  absent : entry = none → (∀ event ∈ log, ¬ event.Concerns i) ∨
    ∃ t cap later now, LastDelivered log i t cap later ∧ .cleaned now ∈ later ∧
      config.lifetime < Time.since now t

theorem lastDelivered_append_self (log : List (Event ι)) (i : ι) (t : Time)
    (cap applied : Bitrate) :
    LastDelivered (log ++ [.delivered i t cap applied]) i t cap [] :=
  ⟨⟨log, applied, rfl⟩, by simp⟩

theorem LastDelivered.append (h : LastDelivered log i t cap later) (hevent : ¬ event.Concerns i) :
    LastDelivered (log ++ [event]) i t cap (later ++ [event]) := by
  obtain ⟨⟨earlier, applied, rfl⟩, hlatest⟩ := h
  refine ⟨⟨earlier, applied, by simp⟩, ?_⟩
  intro other hother
  rcases List.mem_append.1 hother with hold | hnew
  · exact hlatest other hold
  · obtain rfl := List.mem_singleton.1 hnew
    exact hevent

/-- What does not concern a receiver leaves its entry fitting. -/
theorem Fits.append (h : Fits config log i entry) (hevent : ¬ event.Concerns i) :
    Fits config (log ++ [event]) i entry where
  held e he := by
    obtain ⟨⟨later, hlast⟩, hrestore⟩ := h.held e he
    exact ⟨⟨_, hlast.append hevent⟩, hrestore⟩
  absent hnone := by
    rcases h.absent hnone with hnever | ⟨t, cap, later, now, hlast, hcleaned, hlate⟩
    · refine Or.inl fun other hother => ?_
      rcases List.mem_append.1 hother with hold | hnew
      · exact hnever other hold
      · obtain rfl := List.mem_singleton.1 hnew
        exact hevent
    · exact Or.inr ⟨t, cap, _, now, hlast.append hevent, by simp [hcleaned], hlate⟩

/-- A tick drops the entry of a receiver exactly if it is too old. -/
theorem Fits.clean (h : Fits config log i entry) (now : Time) :
    Fits config (log ++ [.cleaned now]) i
      (entry.filter fun e => !decide (config.lifetime < Time.since now e.arrival)) where
  held e he := (h.append id).held e (Option.filter_eq_some_iff.1 he).1
  absent hnone := by
    cases entry with
    | none => exact (h.append id).absent rfl
    | some e =>
      -- The entry was there, so that there is a latest request, and it was dropped for its age.
      have hlate : config.lifetime < Time.since now e.arrival := by
        simpa using hnone
      obtain ⟨⟨later, hlast⟩, -⟩ := h.held e rfl
      exact Or.inr ⟨_, _, _, now, hlast.append id, by simp, hlate⟩

/-! ### The publisher -/

/-- The acknowledgement of a request that came in. -/
def Event.ack? (publisher : String) (identity : ι → String) : Event ι → Option Parcel
  | .delivered i _ _ applied =>
    some ⟨identity i, Message.encode (.ack (.ofHigh applied publisher))⟩
  | .cleaned _ => none

variable {publisher : String} {identity : ι → String} {p : Publisher σ MemoryChannel}

/-- The publisher is in the state that what has happened leads to. -/
structure Agrees (publisher : String) (identity : ι → String) (config : Config)
    (p : Publisher σ MemoryChannel) (log : List (Event ι)) : Prop where
  settled : p.Settled
  tracks : ∃ calls, p.arbitrator.Tracks calls
  settings : p.arbitrator.IsOf publisher config
  fits : ∀ i, Fits config log i (p.arbitrator.entries.get? (identity i))
  owned : ∀ name e, p.arbitrator.entries.get? name = some e →
    (∃ i, name = identity i) ∧ Estimator.Permits config.ceilings.high e.caps.high
  applied : ∀ c, p.arbitrator.applied = some c → c.high.bps.IsWhole
  sent : p.channel.sent = log.filterMap (Event.ack? publisher identity)
  isOpen : p.channel.isClosed = false

theorem agrees_ofConfig (publisher : String) (identity : ι → String)
    (hceilings : config.ceilings.IsWhole) (sender : σ) :
    Agrees publisher identity config (.ofConfig publisher config sender {}) [] where
  settled := Publisher.settled_ofConfig publisher config sender _
  tracks := ⟨[], Arbitrator.tracks_ofConfig publisher hceilings.isNumber⟩
  settings := ⟨rfl, rfl, rfl⟩
  fits i := ⟨by rintro e ⟨⟩, fun _ => Or.inl (by simp)⟩
  owned name e he := by cases he
  applied c hc := by cases hc
  sent := rfl
  isOpen := rfl

theorem Agrees.isWhole_effective (h : Agrees publisher identity config p log)
    (hceilings : config.ceilings.IsWhole) : p.arbitrator.effective.high.bps.IsWhole := by
  rw [Arbitrator.effective]
  cases happlied : p.arbitrator.applied with
  | none =>
    rw [Option.getD_none, h.settings.ceilings_eq]
    exact hceilings.high
  | some c => exact h.applied c happlied

/-- The cap of the high layer in force is the ceiling if there is no entry, and else the least one
among the entries. -/
theorem Agrees.effective_high (h : Agrees publisher identity config p log)
    (hceilings : config.ceilings.IsWhole) :
    ((∀ i, p.arbitrator.entries.get? (identity i) = none) →
        p.arbitrator.effective.high = config.ceilings.high) ∧
      (∀ i e, p.arbitrator.entries.get? (identity i) = some e →
        p.arbitrator.effective.high ≤ e.caps.high) ∧
      ((∃ i, p.arbitrator.entries.get? (identity i) ≠ none) →
        ∃ i e, p.arbitrator.entries.get? (identity i) = some e ∧
          p.arbitrator.effective.high = e.caps.high) := by
  obtain ⟨calls, htracks⟩ := h.tracks
  obtain ⟨hempty, hminimum⟩ := htracks.effective_spec
  have hwhole := h.isWhole_effective hceilings
  have hentry : ∀ {name e}, p.arbitrator.entries.get? name = some e → e.caps.high.bps.IsWhole :=
    fun he => (h.owned _ _ he).2.isWhole hceilings.high
  have hle : ∀ {name e}, p.arbitrator.entries.get? name = some e →
      p.arbitrator.effective.high ≤ e.caps.high := fun he =>
    hminimum.le _ (Or.inr ⟨_, _, he, rfl⟩) .high
  refine ⟨fun hnone => ?_, fun i e he => hle he, fun ⟨i, hi⟩ => ?_⟩
  · rw [← h.settings.ceilings_eq, hempty]
    intro name
    by_contra hsome
    obtain ⟨e, he⟩ := Option.ne_none_iff_exists'.1 hsome
    obtain ⟨⟨i, rfl⟩, -⟩ := h.owned name e he
    exact hsome (hnone i)
  · obtain ⟨c, hc, hsame⟩ := hminimum.attained .high
    have hplace := Binary64.place_eq_of_same hsame
    rcases hc with rfl | ⟨name, e, he, rfl⟩
    · -- Every entry lies between what is in force and the ceiling, which are the same here.
      obtain ⟨e, he⟩ := Option.ne_none_iff_exists'.1 hi
      refine ⟨i, e, he, congrArg Bitrate.mk (hwhole.eq_of_place (hentry he) ?_)⟩
      refine le_antisymm ((Binary64.le_iff_place_le hwhole.ne_nan
        (hentry he).ne_nan).1 (hle he)) ?_
      rw [h.settings.ceilings_eq] at hplace
      exact (Binary64.place_le_of_rank_le (h.owned _ _ he).2.most).trans_eq hplace.symm
    · obtain ⟨⟨i, rfl⟩, -⟩ := h.owned name e he
      exact ⟨i, e, he, congrArg Bitrate.mk (hwhole.eq_of_place (hentry he) hplace)⟩

/-- What happens is recorded, if it does to the entries and to the channel what the record says. The
rest follows for every decision of the arbitrator. -/
theorem Agrees.record [Sender σ] (h : Agrees publisher identity config p log)
    (hceilings : config.ceilings.IsWhole) {call : Publisher.Call} {decision : Arbitrator.Call}
    (hdecision : call.decision? = some decision)
    (hfits : ∀ i, Fits config (log ++ [event]) i
      ((p.arbitrator.step decision).entries.get? (identity i)))
    (howned : ∀ name e, (p.arbitrator.step decision).entries.get? name = some e →
      (∃ i, name = identity i) ∧ Estimator.Permits config.ceilings.high e.caps.high)
    (hsent : (p.step call).channel.sent =
      p.channel.sent ++ (event.ack? publisher identity).toList)
    (hopen : (p.step call).channel.isClosed = false) :
    Agrees publisher identity config (p.step call) (log ++ [event]) := by
  -- The publisher drains its queue after every decision, and nothing else tells the two apart.
  obtain ⟨calls, htracks⟩ := h.tracks
  have hsettings := h.settings.step decision
  have hceiling : p.arbitrator.ceilings.high.bps.IsWhole := by
    rw [h.settings.ceilings_eq]
    exact hceilings.high
  have harbitrator : (p.step call).arbitrator =
      { p.arbitrator.step decision with queue := [] } := by
    rw [Publisher.step_arbitrator h.settled, Publisher.decided_of_decision? hdecision]
  refine
    { settled := h.settled.step call
      tracks := ⟨_, Publisher.tracks_step h.settled htracks call⟩
      settings := ?_
      fits := ?_
      owned := ?_
      applied := ?_
      sent := ?_
      isOpen := hopen }
  · rw [harbitrator]
    exact ⟨hsettings.identity_eq, hsettings.ceilings_eq, hsettings.lifetime_eq⟩
  · rw [harbitrator]
    exact hfits
  · rw [harbitrator]
    exact howned
  · rw [harbitrator]
    exact Arbitrator.isWhole_applied_step decision hceiling h.applied
      fun name e he => (howned name e he).2.isWhole hceilings.high
  · rw [hsent, h.sent, List.filterMap_append]
    cases event <;> rfl

/-- A letter is opened. -/
theorem Agrees.receive [Sender σ] (h : Agrees publisher identity config p log)
    (hceilings : config.ceilings.IsWhole) (hinj : Function.Injective identity)
    (hne : identity i ≠ "") {letter : Letter} {r : CapRequest}
    (hconveys : letter.Conveys config.ceilings (identity i) r)
    (hpermits : Estimator.Permits config.ceilings.high letter.cap) (now : Time) (isKnown : Bool) :
    let p' := p.step (.receive letter.payload (if isKnown then identity i else "") now)
    Agrees publisher identity config p'
      (log ++ [.delivered i now letter.cap p'.arbitrator.effective.high]) := by
  have hkey := hconveys.keyOf_eq hne isKnown
  -- Only the key matters from here on, not how it came about.
  generalize (if isKnown then identity i else "") = source at hkey ⊢
  obtain ⟨hdecode, -, hcap, hrestore⟩ := hconveys
  intro p'
  have hget : ∀ name, (p.arbitrator.step (.request r source now)).entries.get? name =
      if name = identity i then some ⟨r.caps config.ceilings, now, r.reason⟩
      else p.arbitrator.entries.get? name := by
    intro name
    rw [← h.settings.ceilings_eq, ← hkey]
    exact Arbitrator.get?_request p.arbitrator r source now name
  have hdecision := Publisher.decision?_receive hdecode source now
  obtain ⟨hsent, hopen⟩ := Publisher.channel_receive h.settled h.isOpen hdecode source now
  have hidentity : p'.arbitrator.identity = publisher := by
    have hstep := (h.settings.step (.request r source now)).identity_eq
    rw [← hstep, Publisher.step_arbitrator h.settled, Publisher.decided_of_decision? hdecision]
  rw [hkey, hidentity] at hsent
  refine h.record hceilings hdecision ?_ ?_ hsent hopen
  · intro j
    rw [hget]
    by_cases hij : i = j
    · subst hij
      rw [if_pos rfl]
      refine ⟨fun e he => ?_, by rintro ⟨⟩⟩
      obtain rfl := Option.some.inj he
      refine ⟨⟨[], ?_⟩, fun hreason => hcap.trans (hrestore hreason)⟩
      rw [hcap]
      exact lastDelivered_append_self log i now _ _
    · -- Another receiver has another key.
      rw [if_neg fun heq => hij (hinj heq).symm]
      exact (h.fits j).append hij
  · intro name e he
    rw [hget] at he
    split at he
    · next hname =>
      obtain rfl := Option.some.inj he
      refine ⟨⟨i, hname⟩, ?_⟩
      rw [hcap]
      exact hpermits
    · exact h.owned name e he

/-- The publisher ticks. -/
theorem Agrees.tick [Sender σ] (h : Agrees publisher identity config p log)
    (hceilings : config.ceilings.IsWhole) (now : Time) (sample : Option OutboundSample) :
    Agrees publisher identity config (p.step (.tick now sample)) (log ++ [.cleaned now]) := by
  have hget : ∀ name, (p.arbitrator.step (.cleanup now)).entries.get? name =
      (p.arbitrator.entries.get? name).filter
        fun e => !decide (config.lifetime < Time.since now e.arrival) := by
    intro name
    rw [← h.settings.lifetime_eq]
    exact Arbitrator.get?_cleanup p.arbitrator now name
  have hchannel := Publisher.channel_tick h.settled now sample
  refine h.record hceilings rfl (fun i => ?_) ?_ ?_ ?_
  · rw [hget]
    exact (h.fits i).clean now
  · intro name e he
    rw [hget] at he
    exact h.owned name e (Option.filter_eq_some_iff.1 he).1
  · rw [hchannel]
    exact (List.append_nil _).symm
  · rw [hchannel]
    exact h.isOpen

/-! ### All participants -/

/-- Every receiver is ready, every letter conveys its cap, and the publisher is in the state that what
has happened leads to. -/
structure IsSound (publisher : String) (identity : ι → String) (config : Config)
    (m : Meeting σ ι) : Prop where
  receivers : ∀ i, (m.receivers i).IsReady (identity i) config
  inFlight : ∀ i, ∀ letter ∈ m.inFlight i,
    Estimator.Permits config.ceilings.high letter.cap ∧
      ∃ r, letter.Conveys config.ceilings (identity i) r
  agrees : Agrees publisher identity config m.publisher m.log

theorem isSound_ofConfig (publisher : String) (identity : ι → String)
    (hceilings : config.ceilings.IsWhole) (sender : σ) :
    (ofConfig publisher identity config sender).IsSound publisher identity config where
  receivers i := Subscriber.isReady_ofConfig (identity i) publisher hceilings.high
  inFlight i letter hletter := by cases hletter
  agrees := agrees_ofConfig publisher identity hceilings sender

variable [DecidableEq ι] {m : Meeting σ ι}

theorem IsSound.tickReceiver (h : m.IsSound publisher identity config)
    (hceilings : config.ceilings.IsWhole) (i : ι) (now : Time) (sample : InboundSample) :
    (m.tickReceiver i now sample).IsSound publisher identity config := by
  obtain ⟨hready, hpermits, hsent⟩ := (h.receivers i).tick hceilings.high now sample
  refine ⟨fun j => ?_, fun j letter hletter => ?_, h.agrees⟩
  · by_cases hij : j = i
    · subst hij
      rw [Meeting.tickReceiver]
      simp only [Function.update_self]
      exact hready
    · rw [Meeting.tickReceiver]
      simp only [Function.update_of_ne hij]
      exact h.receivers j
  · rw [Meeting.tickReceiver] at hletter
    by_cases hij : j = i
    · subst hij
      simp only [Function.update_self, List.mem_append, List.mem_map] at hletter
      rcases hletter with hold | ⟨parcel, hparcel, rfl⟩
      · exact h.inFlight j letter hold
      · exact ⟨hpermits, hsent parcel hparcel⟩
    · simp only [Function.update_of_ne hij] at hletter
      exact h.inFlight j letter hletter

variable [Sender σ]

theorem IsSound.deliver (h : m.IsSound publisher identity config)
    (hceilings : config.ceilings.IsWhole) (hinj : Function.Injective identity)
    (hne : ∀ i, identity i ≠ "") (i : ι) (now : Time) (isKnown : Bool) :
    (m.deliver i now isKnown).IsSound publisher identity config := by
  rw [Meeting.deliver]
  cases hqueue : m.inFlight i with
  | nil => exact h
  | cons letter rest =>
    obtain ⟨hpermits, r, hconveys⟩ := h.inFlight i letter (by simp [hqueue])
    have hagrees := h.agrees.receive hceilings hinj (hne i) hconveys hpermits now isKnown
    rw [← (h.receivers i).identity_eq] at hagrees
    refine ⟨h.receivers, fun j other hother => ?_, hagrees⟩
    by_cases hij : j = i
    · subst hij
      simp only [Function.update_self] at hother
      exact h.inFlight j other (by simp [hqueue, hother])
    · simp only [Function.update_of_ne hij] at hother
      exact h.inFlight j other hother

/-- Every step leaves a meeting sound. -/
theorem IsSound.step (h : m.IsSound publisher identity config)
    (hceilings : config.ceilings.IsWhole) (hinj : Function.Injective identity)
    (hne : ∀ i, identity i ≠ "") (s : Step ι) : (m.step s).IsSound publisher identity config := by
  cases s with
  | tickReceiver i now sample => exact h.tickReceiver hceilings i now sample
  | deliver i now isKnown => exact h.deliver hceilings hinj hne i now isKnown
  | tickPublisher now sample => exact ⟨h.receivers, h.inFlight, h.agrees.tick hceilings now sample⟩

theorem isSound_run (publisher : String) (hinj : Function.Injective identity)
    (hne : ∀ i, identity i ≠ "") (hceilings : config.ceilings.IsWhole) (sender : σ)
    (steps : List (Step ι)) :
    ((ofConfig publisher identity config sender).run steps).IsSound publisher identity config := by
  induction steps using List.reverseRecOn with
  | nil => exact isSound_ofConfig publisher identity hceilings sender
  | append_singleton steps s ih =>
    rw [run_append_singleton]
    exact ih.step hceilings hinj hne s

/-- After any steps of any participants at any times, the publisher holds for each receiver the cap
that the receiver had when it sent its latest request that came in, or nothing if there is none or it
has expired; in force is the least of these caps, or the ceiling; and every request that came in has
been acknowledged, once, with the cap in force after it. -/
theorem run_safe (publisher : String) (hinj : Function.Injective identity)
    (hne : ∀ i, identity i ≠ "") (hceilings : config.ceilings.IsWhole) (sender : σ)
    (steps : List (Step ι)) :
    let m := (ofConfig publisher identity config sender).run steps
    let a := m.publisher.arbitrator
    (∀ i, Fits config m.log i (a.entries.get? (identity i))) ∧
      ((∀ i, a.entries.get? (identity i) = none) → a.effective.high = config.ceilings.high) ∧
      (∀ i e, a.entries.get? (identity i) = some e → a.effective.high ≤ e.caps.high) ∧
      ((∃ i, a.entries.get? (identity i) ≠ none) →
        ∃ i e, a.entries.get? (identity i) = some e ∧ a.effective.high = e.caps.high) ∧
      m.publisher.channel.sent = m.log.filterMap (Event.ack? publisher identity) := by
  intro m a
  have h : m.IsSound publisher identity config :=
    isSound_run publisher hinj hne hceilings sender steps
  obtain ⟨hempty, hle, hattained⟩ := h.agrees.effective_high hceilings
  exact ⟨h.agrees.fits, hempty, hle, hattained, h.agrees.sent⟩

/-- Two receivers ask for different caps, and the lower one comes into force. -/
theorem lower_cap_in_force :
    let config : Config := {}
    let identity : Bool → String := fun i => if i then "first" else "second"
    let steps : List (Step Bool) :=
      [.tickReceiver true 0 ⟨50, .mega 4⟩, .tickReceiver false 3 ⟨100, .mega 8⟩,
        .deliver true 5 true, .deliver false 8 false, .tickPublisher 9 none]
    let sender : MemorySender := { parameters := .simulcast }
    let m := (ofConfig "publisher" identity config sender).run steps
    Function.Injective identity ∧ (∀ i, identity i ≠ "") ∧ config.ceilings.IsWhole ∧
      m.publisher.arbitrator.effective.high = .mega 2 ∧
      ∃ e later, m.publisher.arbitrator.entries.get? (identity false) = some e ∧
        LastDelivered m.log false e.arrival e.caps.high later := by
  intro config identity steps sender m
  have hinj : Function.Injective identity := by
    unfold Function.Injective
    decide
  have hne : ∀ i, identity i ≠ "" := by decide
  have hceilings : config.ceilings.IsWhole := by
    intro l
    cases l with
    | high => exact ⟨15000 * 1000, by decide, rfl⟩
    | medium => exact ⟨5000 * 1000, by decide, rfl⟩
    | low => exact ⟨1500 * 1000, by decide, rfl⟩
  have heffective : m.publisher.arbitrator.effective.high = .mega 2 := by decide +kernel
  have hentry : m.publisher.arbitrator.entries.get? (identity false) ≠ none := by decide +kernel
  have hsafe := run_safe "publisher" hinj hne hceilings sender steps
  -- From here on it only matters that the meeting is safe, not what it is.
  have hm : m = (ofConfig "publisher" identity config sender).run steps := rfl
  rw [← hm] at hsafe
  clear_value m
  obtain ⟨e, he⟩ := Option.ne_none_iff_exists'.1 hentry
  obtain ⟨⟨later, hlast⟩, -⟩ := (hsafe.1 false).held e he
  exact ⟨hinj, hne, hceilings, heffective, e, later, he, hlast⟩

end Meeting

end Simulcast
