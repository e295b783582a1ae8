import Mathlib.Data.List.Forall2
import Simulcast.Proofs.Arbitration.Delivery

/-!
# Receivers do not depend on each other

Nobody can loosen the caps that others asked for. To see this, some operations are compared with the
same ones without the requests of one receiver. The entries of all others are the same in both, so that
everything that counts without the receiver counts with it as well, and a minimum over more caps is
never larger.

It makes no difference that the two may be in quite different situations: without the receiver there may
be no entry left, and the ceilings in force again, where with it there are still caps. In both cases the
caps in force are the minimum of what counts, and this is all that the comparison uses.

## Main definitions

* `Arbitrator.without` — some operations without the requests under one name
* `Arbitrator.Omits` — one arbitrator holds what another one holds, except under one name

## Main results

* `Arbitrator.Omits.step` — an operation under another name, or without one, on both sides
* `Arbitrator.Omits.effective_le` — the caps in force compared
* `Arbitrator.run_le_run_without` — entries, caps in force and acknowledgements compared
-/

namespace Simulcast.Arbitrator

variable {a b : Arbitrator} {name : String} {calls : List Call}

/-- Is the operation a request that is kept under this name? -/
def Call.isUnder (name : String) : Call → Bool
  | .request r source _ => keyOf source r == name
  | _ => false

/-- The operations without the requests that are kept under this name. -/
def without (name : String) (calls : List Call) : List Call :=
  calls.filter fun call => !call.isUnder name

/-! ### Entries -/

/-- The second arbitrator holds the entries of the first one, except that it has none under this
name. -/
structure Omits (name : String) (a b : Arbitrator) : Prop where
  ceilings_eq : b.ceilings = a.ceilings
  lifetime_eq : b.lifetime = a.lifetime
  get?_name : b.entries.get? name = none
  get?_other : ∀ other, other ≠ name → b.entries.get? other = a.entries.get? other

theorem omits_ofConfig (identity : String) (config : Config) (name : String) :
    (ofConfig identity config).Omits name (ofConfig identity config) where
  ceilings_eq := rfl
  lifetime_eq := rfl
  get?_name := rfl
  get?_other _ _ := rfl

/-- What an operation does to one entry depends on this entry alone. -/
theorem get?_step_congr (hceilings : b.ceilings = a.ceilings) (hlifetime : b.lifetime = a.lifetime)
    (h : b.entries.get? name = a.entries.get? name) (call : Call) :
    (b.step call).entries.get? name = (a.step call).entries.get? name := by
  ext e
  rw [get?_step, get?_step, hceilings, hlifetime, h]

/-- A request leaves the entries under other names alone. -/
theorem get?_step_of_isUnder {call : Call} (hcall : call.isUnder name = true) {other : String}
    (hother : other ≠ name) : (a.step call).entries.get? other = a.entries.get? other := by
  cases call with
  | request r source now =>
    have hkey : keyOf source r = name := beq_iff_eq.1 hcall
    rw [step, get?_request, hkey, if_neg hother]
  | cleanup now => cases hcall
  | clear => cases hcall
  | poll => cases hcall

/-- Where there is no entry, only a request under this name makes one. -/
theorem get?_step_of_not_isUnder {call : Call} (hcall : call.isUnder name = false)
    (hnone : a.entries.get? name = none) : (a.step call).entries.get? name = none := by
  refine Option.eq_none_iff_forall_ne_some.2 fun e he => ?_
  rcases (get?_step call).1 he with hsets | ⟨hold, -⟩
  · cases call with
    | request r source now => exact beq_eq_false_iff_ne.1 hcall hsets.1
    | cleanup now => exact hsets
    | clear => exact hsets
    | poll => exact hsets
  · rw [hnone] at hold
    cases hold

/-- A request under the name makes no difference to the other side. -/
theorem Omits.step_left (h : a.Omits name b) {call : Call} (hcall : call.isUnder name = true) :
    (a.step call).Omits name b where
  ceilings_eq := h.ceilings_eq.trans (step_ceilings a call).symm
  lifetime_eq := h.lifetime_eq.trans (step_lifetime a call).symm
  get?_name := h.get?_name
  get?_other other hother := by rw [get?_step_of_isUnder hcall hother, h.get?_other other hother]

/-- Every other operation does the same on both sides. -/
theorem Omits.step (h : a.Omits name b) {call : Call} (hcall : call.isUnder name = false) :
    (a.step call).Omits name (b.step call) where
  ceilings_eq := by rw [step_ceilings, step_ceilings, h.ceilings_eq]
  lifetime_eq := by rw [step_lifetime, step_lifetime, h.lifetime_eq]
  get?_name := get?_step_of_not_isUnder hcall h.get?_name
  get?_other other hother :=
    get?_step_congr h.ceilings_eq h.lifetime_eq (h.get?_other other hother) call

theorem without_append_singleton (name : String) (calls : List Call) (call : Call) :
    without name (calls ++ [call]) =
      if call.isUnder name then without name calls else without name calls ++ [call] := by
  unfold without
  rw [List.filter_append]
  cases hcall : call.isUnder name <;> simp [hcall]

theorem omits_run (identity : String) (config : Config) (name : String) (calls : List Call) :
    let start := ofConfig identity config
    (start.run calls).Omits name (start.run (without name calls)) := by
  induction calls using List.reverseRecOn with
  | nil => exact omits_ofConfig identity config name
  | append_singleton calls call ih =>
    dsimp only
    rw [without_append_singleton]
    cases hcall : call.isUnder name with
    | true =>
      rw [if_pos rfl, run_append_singleton]
      exact ih.step_left hcall
    | false =>
      rw [if_neg Bool.false_ne_true, run_append_singleton, run_append_singleton]
      exact ih.step hcall

/-! ### The caps in force -/

/-- What counts without the receiver counts with it as well. -/
theorem Omits.demands_subset (h : a.Omits name b) : b.demands ⊆ a.demands := by
  rintro c (rfl | ⟨other, e, he, rfl⟩)
  · exact Or.inl h.ceilings_eq
  · refine Or.inr ⟨other, e, ?_, rfl⟩
    have hother : other ≠ name := by
      rintro rfl
      rw [h.get?_name] at he
      cases he
    rw [← h.get?_other other hother, he]

/-- Whatever the receiver asks for, the caps in force are no looser than without it. -/
theorem Omits.effective_le (h : a.Omits name b) {others : List Call} (ha : a.Tracks calls)
    (hb : b.Tracks others) (l : Layer) : a.effective.get l ≤ b.effective.get l :=
  ha.effective_spec.2.le_of_subset (fun _ hc => ha.holdsNumbers.isNumber_of_mem_demands hc)
    hb.effective_spec.2 h.demands_subset l

theorem effective_run_le (identity : String) {config : Config}
    (hceilings : config.ceilings.IsNumber) (name : String) (calls : List Call) (l : Layer) :
    let start := ofConfig identity config
    (start.run calls).effective.get l ≤ (start.run (without name calls)).effective.get l :=
  (omits_run identity config name calls).effective_le (tracks_run identity hceilings calls)
    (tracks_run identity hceilings (without name calls)) l

/-! ### Acknowledgements -/

/-- Two acknowledgements go to the same receiver, and the first one states no higher cap. -/
def AckLe (x y : String × CapAck) : Prop := x.1 = y.1 ∧ x.2.appliedHigh ≤ y.2.appliedHigh

/-- The acknowledgements to other receivers, one by one. -/
theorem answers_run_le (identity : String) {config : Config}
    (hceilings : config.ceilings.IsNumber) (name : String) (calls : List Call) :
    let start := ofConfig identity config
    List.Forall₂ AckLe ((start.answers calls).filter fun x => x.1 ≠ name)
      (start.answers (without name calls)) := by
  induction calls using List.reverseRecOn with
  | nil => exact .nil
  | append_singleton calls call ih =>
    have hle := effective_run_le identity hceilings name (calls ++ [call]) .high
    dsimp only [answers] at ih hle ⊢
    rw [without_append_singleton] at hle ⊢
    rw [collect_append_singleton, List.filter_append]
    cases hcall : call.isUnder name with
    | true =>
      -- The receiver itself is answered on one side only, and this answer is left out.
      have hleft : (((ofConfig identity config).run calls).answer? call).toList.filter
          (fun x => x.1 ≠ name) = [] := by
        cases call with
        | request r source now =>
          have hkey : keyOf source r = name := beq_iff_eq.1 hcall
          simp [answer?, hkey]
        | cleanup now => rfl
        | clear => rfl
        | poll => rfl
      rw [if_pos rfl, hleft, List.append_nil]
      exact ih
    | false =>
      rw [if_neg Bool.false_ne_true, collect_append_singleton]
      rw [hcall, if_neg Bool.false_ne_true, run_append_singleton, run_append_singleton] at hle
      refine List.rel_append ih ?_
      cases call with
      | request r source now =>
        have hkey : keyOf source r ≠ name := beq_eq_false_iff_ne.1 hcall
        simp only [answer?, Option.toList_some, List.filter_cons, List.filter_nil, hkey, ne_eq,
          not_false_eq_true, decide_true, if_true]
        exact .cons ⟨rfl, hle⟩ .nil
      | cleanup now => exact .nil
      | clear => exact .nil
      | poll => exact .nil

/-- Some operations compared with the same ones without the requests of one receiver: all other
receivers have the same entries, in no layer are the caps in force looser than without the receiver, and
of the acknowledgements that go to others, come out or still in the queue, none states a higher cap. This
holds after any operations, and so at any point of a longer sequence. -/
theorem run_le_run_without (identity : String) (config : Config)
    (hceilings : config.ceilings.IsNumber) (name : String) (calls : List Call) :
    let start := ofConfig identity config
    let others := without name calls
    let a := start.run calls
    let b := start.run others
    (∀ other, other ≠ name → a.entries.get? other = b.entries.get? other) ∧
      (∀ l, a.effective.get l ≤ b.effective.get l) ∧
      List.Forall₂ AckLe ((acksOf (start.taken calls ++ a.queue)).filter fun x => x.1 ≠ name)
        (acksOf (start.taken others ++ b.queue)) := by
  intro start others a b
  refine ⟨fun other hother => ?_, effective_run_le identity hceilings name calls, ?_⟩
  · exact ((omits_run identity config name calls).get?_other other hother).symm
  · rw [(delivers_run identity config calls).acks, (delivers_run identity config others).acks]
    exact answers_run_le identity hceilings name calls

/-- Without the one receiver whose caps are still alive, the ceilings would be in force again. -/
theorem ceilings_without_last_receiver :
    let ask (high : Nat) : CapRequest := .ofCaps (.ofHigh (.mega high)) .congestion 0 ""
    let start := ofConfig "publisher" {}
    let calls : List Call := [.request (ask 4) "receiver-2" 0, .poll,
      .request (ask 6) "receiver-1" 10000, .request (ask 5) "receiver-3" 0, .cleanup 15001]
    let others := without "receiver-1" calls
    let a := start.run calls
    let b := start.run others
    ({} : Config).ceilings.IsNumber ∧ a.effective.high = .mega 6 ∧ b.effective.high = .mega 15 ∧
      (∀ l, a.effective.get l ≤ b.effective.get l) ∧
      List.Forall₂ AckLe
        ((acksOf (start.taken calls ++ a.queue)).filter fun x => x.1 ≠ "receiver-1")
        (acksOf (start.taken others ++ b.queue)) := by
  intro ask start calls others a b
  have hvalues : a.effective.high = .mega 6 ∧ b.effective.high = .mega 15 := by decide +kernel
  obtain ⟨-, heffective, hacks⟩ :=
    run_le_run_without "publisher" {} Caps.isNumber_standard "receiver-1" calls
  exact ⟨Caps.isNumber_standard, hvalues.1, hvalues.2, heffective, hacks⟩

end Simulcast.Arbitrator
