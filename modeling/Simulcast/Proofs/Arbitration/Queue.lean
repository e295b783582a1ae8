import Simulcast.Proofs.Arbitration.Calls

/-!
# What an arbitrator hands out

Whoever drains the queue after each operation finds there what that operation decided: the caps that
came into force, if others were in force before, and the acknowledgement of a request. Caps that did
not change are not handed out again.

## Main definitions

* `Arbitrator.kicks` — the tasks that set caps, as actions on a sender
* `Arbitrator.Decides` — what putting caps in force does to the queue

## Main results

* `Arbitrator.kicks_step` — what an operation hands out are the caps in force after it
* `Arbitrator.request_queue` — a request is acknowledged, once, with the caps in force after it
-/

namespace Simulcast.Arbitrator

variable {a : Arbitrator}

/-- The tasks that set caps, as actions on a sender. -/
def kicks (queue : List Task) : List Action :=
  queue.filterMap fun
    | .apply caps => some ⟨.kick, caps⟩
    | .ack .. => none

/-- Nothing was decided, or caps were put in force: then they wait at the end of the queue, in place of
any that waited before. -/
def Decides (a b : Arbitrator) : Prop :=
  (b.queue = a.queue ∧ b.applied = a.applied) ∨
    b.queue = a.queue.filter (fun task => !task.isApply) ++ [.apply b.effective]

theorem enforce_decides (a : Arbitrator) : a.Decides a.enforce.value := by
  rw [enforce_value]
  split
  · exact Or.inl ⟨rfl, rfl⟩
  · exact Or.inr rfl

theorem cleanup_decides (a : Arbitrator) (now : Time) : a.Decides (a.cleanup now).value := by
  rw [cleanup_value]
  split
  · split
    · exact Or.inr rfl
    · exact Or.inl ⟨rfl, rfl⟩
  · exact enforce_decides (a.expire now)

theorem clear_decides (a : Arbitrator) : a.Decides a.clear := Or.inr rfl

theorem Decides.of_nil {b : Arbitrator} (hdecides : a.Decides b) (h : a.queue = []) :
    (b.queue = [] ∧ b.applied = a.applied) ∨ b.queue = [.apply b.effective] := by
  rw [Decides, h] at hdecides
  exact hdecides

theorem enforce_queue (h : a.queue = []) :
    (a.enforce.value.queue = [] ∧ a.enforce.value.applied = a.applied) ∨
      a.enforce.value.queue = [.apply a.enforce.value.effective] :=
  (enforce_decides a).of_nil h

theorem request_queue (h : a.queue = []) (r : CapRequest) (source : String) (now : Time) :
    let b := (a.request r source now).value.1
    let ack := Task.ack (keyOf source r) (.ofHigh b.effective.high b.identity)
    (b.queue = [ack] ∧ b.applied = a.applied) ∨ b.queue = [.apply b.effective, ack] := by
  intro b ack
  rcases enforce_queue (a := a.enroll r source now) h with ⟨hqueue, happlied⟩ | hqueue
  · refine Or.inl ⟨?_, happlied⟩
    change (a.enroll r source now).enforce.value.queue ++ [ack] = [ack]
    rw [hqueue, List.nil_append]
  · refine Or.inr ?_
    change (a.enroll r source now).enforce.value.queue ++ [ack] = [.apply b.effective, ack]
    rw [hqueue]
    rfl

theorem cleanup_queue (h : a.queue = []) (now : Time) :
    let b := (a.cleanup now).value
    (b.queue = [] ∧ b.applied = a.applied) ∨ b.queue = [.apply b.effective] :=
  (cleanup_decides a now).of_nil h

theorem clear_queue (h : a.queue = []) : a.clear.queue = [.apply a.clear.effective] := by
  simp [clear, enqueueCaps, effective, h]

/-- What an operation hands out are the caps that are in force after it. It hands out nothing only
if these are the caps that were in force before. -/
theorem kicks_step (h : a.queue = []) (call : Call) :
    (kicks (a.step call).queue = [] ∧ (a.step call).applied = a.applied ∧ call ≠ .clear) ∨
      kicks (a.step call).queue = [⟨.kick, (a.step call).effective⟩] := by
  cases call with
  | request r source now =>
    rcases request_queue h r source now with ⟨hqueue, happlied⟩ | hqueue
    · exact Or.inl ⟨by rw [step, hqueue]; rfl, happlied, by simp⟩
    · exact Or.inr (by rw [step, hqueue]; rfl)
  | cleanup now =>
    rcases cleanup_queue h now with ⟨hqueue, happlied⟩ | hqueue
    · exact Or.inl ⟨by rw [step, hqueue]; rfl, happlied, by simp⟩
    · exact Or.inr (by rw [step, hqueue]; rfl)
  | clear => exact Or.inr (by rw [step, clear_queue h]; rfl)
  | poll =>
    rw [step, poll_eq]
    exact Or.inl ⟨by simp [h, kicks], rfl, by simp⟩

end Simulcast.Arbitrator
