import Simulcast.Proofs.Arbitration.Calls

/-!
# Arbitration as a function of what was asked for

What an arbitrator holds after any operations can be read off the operations themselves. A name has
an entry when a request was made under it that nothing has undone since: no later request under the
same name, no `clear`, and no `cleanup` that came more than the lifetime after it. In force is the
minimum of what is held, so neither the order of the entries nor what was in force before has any
influence.

## Main definitions

* `Arbitrator.Keeps` — the entry that a name has after some operations
* `Arbitrator.Tracks` — the state of an arbitrator is the outcome of some operations

## Main results

* `Arbitrator.Tracks.step` — an operation adds itself to what an arbitrator tracks
* `Arbitrator.run_refines_history` — entries and caps in force after any operations
-/

namespace Simulcast.Arbitrator

variable {a : Arbitrator} {ceilings : Caps} {lifetime : Time} {calls : List Call} {name : String}
  {e : CapEntry}

/-- After the operations, the name has this entry: one of them set it, and all later ones left it
alone. -/
def Keeps (ceilings : Caps) (lifetime : Time) (calls : List Call) (name : String)
    (e : CapEntry) : Prop :=
  ∃ earlier call later, calls = earlier ++ call :: later ∧ call.Sets ceilings name e ∧
    ∀ c ∈ later, c.Spares lifetime name e.arrival

theorem not_keeps_nil : ¬ Keeps ceilings lifetime [] name e := by
  rintro ⟨earlier, call, later, heq, -⟩
  simp at heq

/-- The last operation sets an entry, or leaves alone what earlier ones have set. -/
theorem keeps_append_singleton (call : Call) :
    Keeps ceilings lifetime (calls ++ [call]) name e ↔
      call.Sets ceilings name e ∨
        (Keeps ceilings lifetime calls name e ∧ call.Spares lifetime name e.arrival) := by
  constructor
  · rintro ⟨earlier, first, later, heq, hsets, hspares⟩
    -- The last operation is the one that sets the entry, or it is among those that spare it.
    rcases List.eq_nil_or_concat later with rfl | ⟨between, last, rfl⟩
    · obtain ⟨-, hlast⟩ := List.append_inj' heq rfl
      obtain rfl := (List.cons.inj hlast).1
      exact Or.inl hsets
    · rw [List.concat_eq_append, ← List.cons_append, ← List.append_assoc] at heq
      obtain ⟨hinit, hlast⟩ := List.append_inj' heq rfl
      obtain rfl := (List.cons.inj hlast).1
      exact Or.inr ⟨⟨earlier, first, between, hinit, hsets, fun c hc => hspares c (by simp [hc])⟩,
        hspares call (by simp)⟩
  · rintro (hsets | ⟨⟨earlier, first, later, rfl, hsets, hspares⟩, hcall⟩)
    · exact ⟨calls, call, [], rfl, hsets, by simp⟩
    · refine ⟨earlier, first, later ++ [call], by simp, hsets, ?_⟩
      intro c hc
      rcases List.mem_append.1 hc with hlater | hlast
      · exact hspares c hlater
      · obtain rfl := List.mem_singleton.1 hlast
        exact hcall

/-- The entries and the caps in force are those that the operations lead to. The queue does not
matter. -/
structure Tracks (a : Arbitrator) (calls : List Call) : Prop where
  isNumber : a.ceilings.IsNumber
  get?_iff : ∀ name e, a.entries.get? name = some e ↔ Keeps a.ceilings a.lifetime calls name e
  consistent : a.Consistent

/-- What is kept is what somebody asked for, sanitized. -/
theorem Keeps.exists_sanitize (h : Keeps ceilings lifetime calls name e) :
    ∃ t, e.caps = Caps.sanitize t ceilings := by
  obtain ⟨-, call, -, -, hsets, -⟩ := h
  exact hsets.exists_sanitize

theorem Tracks.holdsNumbers (h : a.Tracks calls) : a.HoldsNumbers where
  ceilings := h.isNumber
  entries name e he := by
    obtain ⟨t, ht⟩ := ((h.get?_iff name e).1 he).exists_sanitize
    rw [ht]
    exact Caps.isNumber_sanitize t a.ceilings

theorem tracks_ofConfig (identity : String) {config : Config}
    (hceilings : config.ceilings.IsNumber) : (ofConfig identity config).Tracks [] where
  isNumber := hceilings
  get?_iff name e := by simp [ofConfig, not_keeps_nil]
  consistent := consistent_ofConfig identity config

/-- An operation adds itself to what an arbitrator tracks. -/
theorem Tracks.step (h : a.Tracks calls) (call : Call) : (a.step call).Tracks (calls ++ [call]) where
  isNumber := by simpa using h.isNumber
  get?_iff name e := by
    rw [get?_step, step_ceilings, step_lifetime, keeps_append_singleton, h.get?_iff]
  consistent := h.consistent.step h.holdsNumbers call

/-- The queue may be drained at any time. -/
theorem Tracks.drain (h : a.Tracks calls) : { a with queue := [] }.Tracks calls :=
  ⟨h.isNumber, h.get?_iff, ⟨h.consistent.applied_eq_none_iff, h.consistent.same_of_applied⟩⟩

theorem tracks_run (identity : String) {config : Config} (hceilings : config.ceilings.IsNumber)
    (calls : List Call) : ((ofConfig identity config).run calls).Tracks calls := by
  -- Histories grow at their end, and so does the induction.
  induction calls using List.reverseRecOn with
  | nil => exact tracks_ofConfig identity hceilings
  | append_singleton calls call ih =>
    rw [run_append_singleton]
    exact ih.step call

@[simp] theorem run_ceilings (a : Arbitrator) (calls : List Call) :
    (a.run calls).ceilings = a.ceilings := by
  induction calls using List.reverseRecOn with
  | nil => rfl
  | append_singleton calls call ih => rw [run_append_singleton, step_ceilings, ih]

@[simp] theorem run_lifetime (a : Arbitrator) (calls : List Call) :
    (a.run calls).lifetime = a.lifetime := by
  induction calls using List.reverseRecOn with
  | nil => rfl
  | append_singleton calls call ih => rw [run_append_singleton, step_lifetime, ih]

theorem Tracks.isMinimum_of_applied (h : a.Tracks calls) {c : Caps} (hc : a.applied = some c) :
    c.IsMinimum a.demands :=
  h.holdsNumbers.isMinimum_strictest.of_same
    (fun _ hb => h.holdsNumbers.isNumber_of_mem_demands hb) (h.consistent.same_of_applied c hc)

/-- In force is the minimum of what counts, or the ceilings if nobody asked for anything. -/
theorem Tracks.effective_spec (h : a.Tracks calls) :
    ((∀ name, a.entries.get? name = none) → a.effective = a.ceilings) ∧
      a.effective.IsMinimum a.demands := by
  -- Nothing cached means no entry, and then only the ceilings count.
  cases happlied : a.applied with
  | none =>
    have hempty := h.consistent.applied_eq_none_iff.1 happlied
    have heff : a.effective = a.ceilings := by rw [effective, happlied, Option.getD_none]
    have hdemands : a.demands = {a.ceilings} := by
      ext c
      simp [demands, hempty]
    rw [heff, hdemands]
    exact ⟨fun _ => rfl, Caps.isMinimum_singleton h.isNumber⟩
  | some c =>
    have heff : a.effective = c := by rw [effective, happlied, Option.getD_some]
    rw [heff]
    refine ⟨fun hempty => ?_, h.isMinimum_of_applied happlied⟩
    rw [h.consistent.applied_eq_none_iff.2 hempty] at happlied
    cases happlied

/-- After any operations at any times, a name has the entry of the latest request under it that has
neither been dropped nor expired; there are caps in force exactly if there is an entry; and they are
the minimum of the ceilings and of all entries, in whatever order these are visited. -/
theorem run_refines_history (identity : String) (config : Config)
    (hceilings : config.ceilings.IsNumber) (calls : List Call) :
    let a := (ofConfig identity config).run calls
    (∀ name e, a.entries.get? name = some e ↔
        Keeps config.ceilings config.lifetime calls name e) ∧
      (a.applied = none ↔ ∀ name, a.entries.get? name = none) ∧
      (∀ c, a.applied = some c →
        c.IsMinimum {d | d = config.ceilings ∨ ∃ name e, a.entries.get? name = some e ∧ d = e.caps} ∧
          ∀ order : List Caps, order.Perm (a.entries.entries.map CapEntry.caps) →
            c.same (order.foldl min config.ceilings) = true) ∧
      ((∀ name, a.entries.get? name = none) → a.effective = config.ceilings) ∧
      (∀ name e, a.entries.get? name = some e → a.applied = some a.effective) := by
  intro a
  have h : a.Tracks calls := tracks_run identity hceilings calls
  have hc : a.ceilings = config.ceilings := run_ceilings _ _
  have hl : a.lifetime = config.lifetime := run_lifetime _ _
  have hnumbers : ∀ d ∈ a.demands, d.IsNumber := fun d hd =>
    h.holdsNumbers.isNumber_of_mem_demands hd
  refine ⟨fun name e => ?_, h.consistent.applied_eq_none_iff, fun c happlied => ⟨?_, ?_⟩, ?_, ?_⟩
  · rw [h.get?_iff, hc, hl]
  · rw [← hc]
    exact h.isMinimum_of_applied happlied
  · intro order horder
    rw [← hc]
    exact (h.isMinimum_of_applied happlied).same hnumbers (h.holdsNumbers.isMinimum_foldl horder)
  · rw [← hc]
    exact h.effective_spec.1
  · intro name e he
    cases happlied : a.applied with
    | none =>
      rw [h.consistent.applied_eq_none_iff.1 happlied name] at he
      cases he
    | some c => rw [effective, happlied, Option.getD_some]

/-- A cleanup exactly one lifetime after a request leaves its entry alone. -/
theorem entry_at_end_of_lifetime :
    ({} : Config).ceilings.IsNumber ∧
      ((ofConfig "publisher" {}).run
          [.request (.ofCaps .floor .congestion 0 "") "receiver" 5, .cleanup 15005]).entries.get?
        "receiver" =
          some ⟨(CapRequest.ofCaps .floor .congestion 0 "").caps .standard, 5, .congestion⟩ := by
  have hceilings : ({} : Config).ceilings.IsNumber := by
    intro l
    cases l <;> decide +kernel
  refine ⟨hceilings, ?_⟩
  refine ((run_refines_history "publisher" {} hceilings _).1 _ _).2 ⟨[], _, _, rfl, ⟨rfl, rfl⟩, ?_⟩
  intro c hc
  obtain rfl := List.mem_singleton.1 hc
  exact Nat.le_refl 15000

end Simulcast.Arbitrator
