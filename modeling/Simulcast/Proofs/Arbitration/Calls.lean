import Simulcast.Arbitrator
import Simulcast.Proofs.Caps.Sanitize

/-!
# What the operations of an arbitrator do

Every operation is described by what it does to the entries and to the caps in force. The queue is
left out of most statements, because nothing that is decided depends on it.

The cached caps in force are consistent with the entries when there are none exactly if there is no
entry, and when they are otherwise the minimum that could be computed anew. `enforce` makes them
consistent from any state that has an entry, so no operation has to look at what was cached before.

## Main definitions

* `Arbitrator.enroll`, `Arbitrator.expire` — what happens to the entries alone
* `Arbitrator.Consistent` — the caps in force fit the entries
* `Arbitrator.Call`, `Arbitrator.step`, `Arbitrator.run` — sequences of operations

## Main results

* `Arbitrator.get?_step` — the entries after an operation
* `Arbitrator.Consistent.step` — every operation leaves the caps in force consistent
-/

namespace Simulcast.Arbitrator

variable {a : Arbitrator} {name : String} {e : CapEntry}

/-! ### The parts of an operation -/

/-- The arbitrator with the entry of a request, before anything is decided. -/
def enroll (a : Arbitrator) (r : CapRequest) (source : String) (now : Time) : Arbitrator :=
  { a with entries := a.entries.insert (keyOf source r) ⟨r.caps a.ceilings, now, r.reason⟩ }

/-- The arbitrator without the entries that have expired, before anything is decided. -/
def expire (a : Arbitrator) (now : Time) : Arbitrator :=
  { a with entries := a.entries.filter fun _ entry => !a.isExpired now entry }

theorem enforce_value (a : Arbitrator) :
    a.enforce.value = if a.applied.any a.strictest.same then a
      else { a with applied := some a.strictest }.enqueueCaps a.strictest := by
  unfold enforce
  dsimp only
  split <;> rfl

@[simp] theorem enforce_entries (a : Arbitrator) : a.enforce.value.entries = a.entries := by
  rw [enforce_value]
  split <;> rfl

@[simp] theorem enforce_ceilings (a : Arbitrator) : a.enforce.value.ceilings = a.ceilings := by
  rw [enforce_value]
  split <;> rfl

@[simp] theorem enforce_lifetime (a : Arbitrator) : a.enforce.value.lifetime = a.lifetime := by
  rw [enforce_value]
  split <;> rfl

@[simp] theorem enforce_identity (a : Arbitrator) : a.enforce.value.identity = a.identity := by
  rw [enforce_value]
  split <;> rfl

/-- A request is enrolled, then the caps are put in force, and then it is acknowledged. -/
theorem request_value (a : Arbitrator) (r : CapRequest) (source : String) (now : Time) :
    (a.request r source now).value =
      let b := (a.enroll r source now).enforce.value
      ({ b with queue :=
          b.queue ++ [.ack (keyOf source r) (CapAck.ofHigh b.effective.high b.identity)] },
        b.effective) := rfl

theorem cleanup_value (a : Arbitrator) (now : Time) :
    (a.cleanup now).value =
      if (a.expire now).entries.isEmpty then
        if a.applied.isSome then
          { a.expire now with applied := none }.enqueueCaps a.ceilings
        else a.expire now
      else (a.expire now).enforce.value := by
  simp only [cleanup, Logged.value_bind]
  change (if (a.expire now).entries.isEmpty then _ else _ : Logged Arbitrator).value = _
  split
  · split <;> rfl
  · rfl

/-! ### Sequences of operations -/

/-- An operation of an arbitrator. -/
inductive Call where
  | request (r : CapRequest) (source : String) (now : Time)
  | cleanup (now : Time)
  | clear
  | poll

/-- The state after an operation. -/
def step (a : Arbitrator) : Call → Arbitrator
  | .request r source now => (a.request r source now).value.1
  | .cleanup now => (a.cleanup now).value
  | .clear => a.clear
  | .poll => a.poll.2

/-- The state after some operations. -/
def run (a : Arbitrator) (calls : List Call) : Arbitrator := calls.foldl step a

theorem run_append_singleton (a : Arbitrator) (calls : List Call) (call : Call) :
    a.run (calls ++ [call]) = (a.run calls).step call := by
  simp only [run, List.foldl_append, List.foldl_cons, List.foldl_nil]

theorem poll_eq (a : Arbitrator) : a.poll.2 = { a with queue := a.queue.tail } := by
  obtain ⟨identity, ceilings, lifetime, entries, applied, queue⟩ := a
  cases queue <;> rfl

/-- No operation changes the settings. -/
theorem step_settings (a : Arbitrator) (call : Call) :
    (a.step call).identity = a.identity ∧ (a.step call).ceilings = a.ceilings ∧
      (a.step call).lifetime = a.lifetime := by
  cases call with
  | request r source now =>
    rw [step, request_value]
    simp [enroll]
  | cleanup now =>
    rw [step, cleanup_value]
    split
    · split <;> exact ⟨rfl, rfl, rfl⟩
    · simp [expire]
  | clear => exact ⟨rfl, rfl, rfl⟩
  | poll =>
    rw [step, poll_eq]
    exact ⟨rfl, rfl, rfl⟩

@[simp] theorem step_ceilings (a : Arbitrator) (call : Call) :
    (a.step call).ceilings = a.ceilings := (step_settings a call).2.1

@[simp] theorem step_lifetime (a : Arbitrator) (call : Call) :
    (a.step call).lifetime = a.lifetime := (step_settings a call).2.2

/-- The settings of the arbitrator are these. -/
structure IsOf (identity : String) (config : Config) (a : Arbitrator) : Prop where
  identity_eq : a.identity = identity
  ceilings_eq : a.ceilings = config.ceilings
  lifetime_eq : a.lifetime = config.lifetime

theorem IsOf.step {identity : String} {config : Config} (h : a.IsOf identity config)
    (call : Call) : (a.step call).IsOf identity config := by
  obtain ⟨hidentity, hceilings, hlifetime⟩ := step_settings a call
  exact ⟨hidentity.trans h.identity_eq, hceilings.trans h.ceilings_eq,
    hlifetime.trans h.lifetime_eq⟩

theorem isOf_run (identity : String) (config : Config) (calls : List Call) :
    ((ofConfig identity config).run calls).IsOf identity config := by
  induction calls using List.reverseRecOn with
  | nil => exact ⟨rfl, rfl, rfl⟩
  | append_singleton calls call ih =>
    rw [run_append_singleton]
    exact ih.step call

/-- Does the operation set an entry to this? -/
def Call.Sets (ceilings : Caps) (name : String) (e : CapEntry) : Call → Prop
  | .request r source now => keyOf source r = name ∧ e = ⟨r.caps ceilings, now, r.reason⟩
  | _ => False

/-- What an operation sets is what somebody asked for, sanitized. -/
theorem Call.Sets.exists_sanitize {ceilings : Caps} {call : Call} (h : call.Sets ceilings name e) :
    ∃ t, e.caps = Caps.sanitize t ceilings := by
  cases call with
  | request r source now =>
    obtain ⟨-, rfl⟩ := h
    exact ⟨r.targets, rfl⟩
  | cleanup now => exact h.elim
  | clear => exact h.elim
  | poll => exact h.elim

/-- Does the operation leave an entry of this time alone? -/
def Call.Spares (lifetime : Time) (name : String) (arrival : Time) : Call → Prop
  | .request r source _ => keyOf source r ≠ name
  | .cleanup now => Time.since now arrival ≤ lifetime
  | .clear => False
  | .poll => True

theorem get?_enroll (r : CapRequest) (source : String) (now : Time) :
    (a.enroll r source now).entries.get? name = some e ↔
      (keyOf source r = name ∧ e = ⟨r.caps a.ceilings, now, r.reason⟩) ∨
        (a.entries.get? name = some e ∧ keyOf source r ≠ name) := by
  simp only [enroll, Roster.get?_insert]
  by_cases h : name = keyOf source r
  · simp [h, eq_comm]
  · simp [h, Ne.symm h]

theorem get?_expire (now : Time) :
    (a.expire now).entries.get? name = some e ↔
      a.entries.get? name = some e ∧ Time.since now e.arrival ≤ a.lifetime := by
  simp only [expire, Roster.get?_filter, Option.filter_eq_some_iff, isExpired, Bool.not_eq_true',
    decide_eq_false_iff_not, not_lt]

theorem cleanup_entries (a : Arbitrator) (now : Time) :
    (a.cleanup now).value.entries = (a.expire now).entries := by
  rw [cleanup_value]
  split
  · split <;> rfl
  · simp

theorem get?_request (a : Arbitrator) (r : CapRequest) (source : String) (now : Time)
    (name : String) :
    (a.request r source now).value.1.entries.get? name =
      if name = keyOf source r then some ⟨r.caps a.ceilings, now, r.reason⟩
      else a.entries.get? name := by
  simp only [request_value, enforce_entries, enroll, Roster.get?_insert]

theorem get?_cleanup (a : Arbitrator) (now : Time) (name : String) :
    (a.cleanup now).value.entries.get? name =
      (a.entries.get? name).filter fun e => !a.isExpired now e := by
  rw [cleanup_entries, expire, Roster.get?_filter]

/-- An entry is there after an operation if the operation set it, or if it was there and the
operation left it alone. -/
theorem get?_step (call : Call) :
    (a.step call).entries.get? name = some e ↔
      call.Sets a.ceilings name e ∨
        (a.entries.get? name = some e ∧ call.Spares a.lifetime name e.arrival) := by
  cases call with
  | request r source now =>
    simp only [step, request_value, enforce_entries, get?_enroll, Call.Sets, Call.Spares]
  | cleanup now =>
    simp only [step, cleanup_entries, get?_expire, Call.Sets, Call.Spares, false_or]
  | clear => simp [step, clear, enqueueCaps, Call.Sets, Call.Spares]
  | poll => simp [step, poll_eq, Call.Sets, Call.Spares]

/-! ### The caps in force -/

/-- The ceilings and all entries hold numbers. -/
structure HoldsNumbers (a : Arbitrator) : Prop where
  ceilings : a.ceilings.IsNumber
  entries : ∀ name e, a.entries.get? name = some e → e.caps.IsNumber

/-- The caps in force fit the entries. -/
structure Consistent (a : Arbitrator) : Prop where
  applied_eq_none_iff : a.applied = none ↔ ∀ name, a.entries.get? name = none
  same_of_applied : ∀ c, a.applied = some c → a.strictest.same c = true

theorem HoldsNumbers.enroll (h : a.HoldsNumbers) (r : CapRequest) (source : String) (now : Time) :
    (a.enroll r source now).HoldsNumbers where
  ceilings := h.ceilings
  entries name e he := by
    rcases get?_enroll r source now |>.1 he with ⟨-, rfl⟩ | ⟨hold, -⟩
    · exact Caps.isNumber_sanitize r.targets a.ceilings
    · exact h.entries name e hold

theorem HoldsNumbers.expire (h : a.HoldsNumbers) (now : Time) : (a.expire now).HoldsNumbers where
  ceilings := h.ceilings
  entries name e he := h.entries name e ((get?_expire now).1 he).1

/-- The caps that count: the ceilings and those of every entry. -/
def demands (a : Arbitrator) : Set Caps :=
  {c | c = a.ceilings ∨ ∃ name e, a.entries.get? name = some e ∧ c = e.caps}

theorem mem_map_caps_iff (c : Caps) :
    c ∈ a.entries.entries.map CapEntry.caps ↔
      ∃ name e, a.entries.get? name = some e ∧ c = e.caps := by
  simp only [List.mem_map, Roster.mem_entries_iff]
  constructor
  · rintro ⟨e, ⟨name, hget⟩, rfl⟩
    exact ⟨name, e, hget, rfl⟩
  · rintro ⟨name, e, hget, rfl⟩
    exact ⟨e, ⟨name, hget⟩, rfl⟩

theorem HoldsNumbers.isNumber_of_mem_demands (h : a.HoldsNumbers) {c : Caps}
    (hc : c ∈ a.demands) : c.IsNumber := by
  rcases hc with rfl | ⟨name, e, hget, rfl⟩
  · exact h.ceilings
  · exact h.entries name e hget

/-- The entries may be visited in any order. -/
theorem HoldsNumbers.isMinimum_foldl (h : a.HoldsNumbers) {order : List Caps}
    (horder : order.Perm (a.entries.entries.map CapEntry.caps)) :
    (order.foldl min a.ceilings).IsMinimum a.demands := by
  have hmem : ∀ c, c ∈ order ↔ ∃ name e, a.entries.get? name = some e ∧ c = e.caps := fun c =>
    horder.mem_iff.trans (mem_map_caps_iff c)
  have hset : a.demands = {c | c = a.ceilings ∨ c ∈ order} := by
    ext c
    simp only [demands, Set.mem_ofPred_eq, hmem]
  rw [hset]
  refine Caps.isMinimum_foldl h.ceilings order fun c hc => ?_
  obtain ⟨name, e, hget, rfl⟩ := (hmem c).1 hc
  exact h.entries name e hget

theorem HoldsNumbers.isMinimum_strictest (h : a.HoldsNumbers) :
    a.strictest.IsMinimum a.demands := by
  rw [strictest, ← List.foldl_map]
  exact h.isMinimum_foldl (List.Perm.refl _)

/-- With an entry, the caps in force become consistent whatever they were. -/
theorem HoldsNumbers.consistent_enforce (h : a.HoldsNumbers)
    (hentry : ∃ name, a.entries.get? name ≠ none) : a.enforce.value.Consistent := by
  have hsome : ¬ ∀ name, a.entries.get? name = none := not_forall.2 hentry
  rw [enforce_value]
  -- Either what was cached is already the strictest, as a number, or it is replaced by it.
  by_cases hsame : a.applied.any a.strictest.same = true
  · rw [if_pos hsame]
    obtain ⟨c, hc, hcsame⟩ := (Option.any_eq_true ..).1 hsame
    refine ⟨by simp [hc, hsome], ?_⟩
    intro d hd
    obtain rfl := Option.some.inj (hc.symm.trans hd)
    exact hcsame
  · rw [if_neg hsame]
    refine ⟨by simpa [enqueueCaps] using hsome, ?_⟩
    intro c hc
    obtain rfl := Option.some.inj hc
    exact Caps.same_refl h.isMinimum_strictest.isNumber

theorem consistent_ofConfig (identity : String) (config : Config) :
    (ofConfig identity config).Consistent where
  applied_eq_none_iff := by simp [ofConfig]
  same_of_applied c hc := by cases hc

theorem applied_enforce (a : Arbitrator) :
    a.enforce.value.applied = a.applied ∨ a.enforce.value.applied = some a.strictest := by
  rw [enforce_value]
  split
  · exact Or.inl rfl
  · exact Or.inr rfl

/-- Caps that come into force are the strictest ones at that time. -/
theorem applied_step (a : Arbitrator) (call : Call) :
    (a.step call).applied = a.applied ∨ (a.step call).applied = none ∨
      (a.step call).applied = some (a.step call).strictest := by
  -- Putting caps in force changes neither the entries nor the ceilings.
  have hstrictest : ∀ a : Arbitrator, a.enforce.value.strictest = a.strictest := fun a => by
    rw [strictest, enforce_entries, enforce_ceilings, strictest]
  cases call with
  | request r source now =>
    have hafter : ((a.request r source now).value.1).strictest =
        (a.enroll r source now).strictest := hstrictest _
    rw [step, hafter]
    exact (applied_enforce (a.enroll r source now)).imp id Or.inr
  | cleanup now =>
    rw [step, cleanup_value]
    split
    · split
      · exact Or.inr (Or.inl rfl)
      · exact Or.inl rfl
    · rw [hstrictest]
      exact (applied_enforce (a.expire now)).imp id Or.inr
  | clear => exact Or.inr (Or.inl rfl)
  | poll =>
    rw [step, poll_eq]
    exact Or.inl rfl

/-- Every operation leaves the caps in force consistent with the entries. -/
theorem Consistent.step (hc : a.Consistent) (h : a.HoldsNumbers) (call : Call) :
    (a.step call).Consistent := by
  cases call with
  | request r source now =>
    -- After a request there is an entry, so the cache is repaired whatever it was.
    have hentry : (a.enroll r source now).entries.get? (keyOf source r) ≠ none := by
      simp [Arbitrator.enroll, Roster.get?_insert]
    have hnew := (h.enroll r source now).consistent_enforce ⟨_, hentry⟩
    exact ⟨hnew.applied_eq_none_iff, hnew.same_of_applied⟩
  | cleanup now =>
    rw [Arbitrator.step, cleanup_value]
    by_cases hempty : (a.expire now).entries.isEmpty = true
    · -- Without an entry nothing is in force, and it does not matter whether anything was.
      rw [if_pos hempty]
      rw [Roster.isEmpty_iff] at hempty
      by_cases hsome : a.applied.isSome = true
      · rw [if_pos hsome]
        exact ⟨iff_of_true rfl hempty, by rintro c ⟨⟩⟩
      · rw [if_neg hsome]
        have hnone : (a.expire now).applied = none := Option.not_isSome_iff_eq_none.1 hsome
        exact ⟨iff_of_true hnone hempty, by simp [hnone]⟩
    · rw [if_neg hempty]
      rw [Roster.isEmpty_iff] at hempty
      exact (h.expire now).consistent_enforce (not_forall.1 hempty)
  | clear => exact ⟨iff_of_true rfl fun _ => rfl, by rintro c ⟨⟩⟩
  | poll =>
    rw [Arbitrator.step, poll_eq]
    exact ⟨hc.applied_eq_none_iff, hc.same_of_applied⟩

end Simulcast.Arbitrator
