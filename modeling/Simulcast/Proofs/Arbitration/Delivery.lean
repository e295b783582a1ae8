import Simulcast.Proofs.Arbitration.History
import Simulcast.Proofs.Arbitration.Queue

/-!
# What comes out of the queue

The caps in force reach the sender late, for nobody has to look at the queue at any particular moment.
What is found there is nevertheless never out of date. Caps that wait are the ones in force, since a
new decision takes the place of one that nobody has looked at yet, and if none wait, then the caps that
were taken last are still in force.

Acknowledgements are another matter. Each of them answers one request and states what was in force
right after it, so that none may be replaced by a later one. They come out in the order of the
requests, each of them once.

The two kinds of task are in the same queue but do not depend on each other. So the proof goes by what an
operation does to the one kind and to the other.

## Main definitions

* `Arbitrator.capsOf`, `Arbitrator.acksOf` — the two kinds of task
* `Arbitrator.taken` — the tasks that some operations take from the queue
* `Arbitrator.answers` — the acknowledgements that some operations call for
* `Arbitrator.Delivers` — what was taken and what still waits are in order

## Main results

* `Arbitrator.step_queue` — what an operation puts into the queue
* `Arbitrator.Delivers.step` — every operation leaves things in order
* `Arbitrator.run_queue_in_order` — the queue after any operations
-/

namespace Simulcast.Arbitrator

variable {a : Arbitrator}

/-! ### Tasks of both kinds -/

/-- The caps that tasks set, in order. -/
def capsOf (tasks : List Task) : List Caps :=
  tasks.filterMap fun
    | .apply caps => some caps
    | .ack .. => none

/-- The acknowledgements among tasks and where they go, in order. -/
def acksOf (tasks : List Task) : List (String × CapAck) :=
  tasks.filterMap fun
    | .apply _ => none
    | .ack destination message => some (destination, message)

@[simp] theorem capsOf_nil : capsOf [] = [] := rfl

@[simp] theorem acksOf_nil : acksOf [] = [] := rfl

@[simp] theorem capsOf_cons_apply (c : Caps) (tasks : List Task) :
    capsOf (.apply c :: tasks) = c :: capsOf tasks := rfl

@[simp] theorem capsOf_cons_ack (destination : String) (message : CapAck) (tasks : List Task) :
    capsOf (.ack destination message :: tasks) = capsOf tasks := rfl

@[simp] theorem acksOf_cons_apply (c : Caps) (tasks : List Task) :
    acksOf (.apply c :: tasks) = acksOf tasks := rfl

@[simp] theorem acksOf_cons_ack (destination : String) (message : CapAck) (tasks : List Task) :
    acksOf (.ack destination message :: tasks) = (destination, message) :: acksOf tasks := rfl

@[simp] theorem capsOf_append (tasks more : List Task) :
    capsOf (tasks ++ more) = capsOf tasks ++ capsOf more := List.filterMap_append

@[simp] theorem acksOf_append (tasks more : List Task) :
    acksOf (tasks ++ more) = acksOf tasks ++ acksOf more := List.filterMap_append

@[simp] theorem capsOf_filter_not_isApply (tasks : List Task) :
    capsOf (tasks.filter fun task => !task.isApply) = [] := by
  refine List.filterMap_eq_nil_iff.2 fun task htask => ?_
  cases task with
  | apply caps => simp [Task.isApply] at htask
  | ack destination message => rfl

@[simp] theorem acksOf_filter_not_isApply (tasks : List Task) :
    acksOf (tasks.filter fun task => !task.isApply) = acksOf tasks := by
  rw [acksOf, List.filterMap_filter]
  refine congrArg (List.filterMap · tasks) (funext fun task => ?_)
  cases task <;> rfl

/-! ### What operations yield -/

/-- What some operations yield one after the other, as far as they yield anything. -/
def collect {β : Type} (yield : Arbitrator → Call → Option β) (a : Arbitrator) : List Call → List β
  | [] => []
  | call :: calls => (yield a call).toList ++ collect yield (a.step call) calls

theorem run_append (a : Arbitrator) (calls more : List Call) :
    a.run (calls ++ more) = (a.run calls).run more :=
  List.foldl_append ..

theorem collect_append {β : Type} (yield : Arbitrator → Call → Option β) (a : Arbitrator)
    (calls more : List Call) :
    collect yield a (calls ++ more) = collect yield a calls ++ collect yield (a.run calls) more := by
  induction calls generalizing a with
  | nil => rfl
  | cons call calls ih =>
    rw [List.cons_append, collect, ih, collect, List.append_assoc]
    rfl

theorem collect_append_singleton {β : Type} (yield : Arbitrator → Call → Option β)
    (a : Arbitrator) (calls : List Call) (call : Call) :
    collect yield a (calls ++ [call]) = collect yield a calls ++ (yield (a.run calls) call).toList := by
  rw [collect_append, collect, collect, List.append_nil]

/-- The task that an operation takes from the queue. -/
def taken? (a : Arbitrator) : Call → Option Task
  | .poll => a.poll.1
  | _ => none

/-- The acknowledgement that an operation calls for. It goes to the name under which the request is
kept, and it states the cap of the high layer that is in force after the request. -/
def answer? (a : Arbitrator) : Call → Option (String × CapAck)
  | .request r source now =>
    some (keyOf source r, .ofHigh (a.step (.request r source now)).effective.high a.identity)
  | _ => none

/-- The tasks that some operations take from the queue, in order. -/
def taken (a : Arbitrator) (calls : List Call) : List Task := collect taken? a calls

/-- The acknowledgements that some operations call for, in order. -/
def answers (a : Arbitrator) (calls : List Call) : List (String × CapAck) := collect answer? a calls

/-! ### One operation -/

/-- Caps that are put in force are the only ones that wait. -/
theorem Decides.capsOf_queue {b : Arbitrator} (h : a.Decides b) :
    (capsOf b.queue = capsOf a.queue ∧ b.applied = a.applied) ∨ capsOf b.queue = [b.effective] := by
  rcases h with ⟨hsame, happlied⟩ | hnew
  · exact Or.inl ⟨congrArg capsOf hsame, happlied⟩
  · refine Or.inr ?_
    rw [hnew, capsOf_append, capsOf_filter_not_isApply]
    rfl

/-- To put caps in force leaves the acknowledgements alone. -/
theorem Decides.acksOf_queue {b : Arbitrator} (h : a.Decides b) :
    acksOf b.queue = acksOf a.queue := by
  rcases h with ⟨hsame, -⟩ | hnew
  · rw [hsame]
  · rw [hnew, acksOf_append, acksOf_filter_not_isApply]
    exact List.append_nil _

/-- An operation that takes nothing from the queue may put caps in force, and adds the acknowledgement
that it calls for. -/
theorem step_queue (a : Arbitrator) {call : Call} (h : call ≠ .poll) :
    ((capsOf (a.step call).queue = capsOf a.queue ∧ (a.step call).applied = a.applied) ∨
        capsOf (a.step call).queue = [(a.step call).effective]) ∧
      acksOf (a.step call).queue = acksOf a.queue ++ (a.answer? call).toList := by
  cases call with
  | request r source now =>
    have hdecides := enforce_decides (a.enroll r source now)
    rw [step, request_value]
    -- The acknowledgement comes last and has no caps to set.
    constructor
    · rw [capsOf_append, capsOf_cons_ack, capsOf_nil, List.append_nil]
      exact hdecides.capsOf_queue
    · rw [acksOf_append, hdecides.acksOf_queue, enforce_identity]
      rfl
  | cleanup now =>
    have hdecides := cleanup_decides a now
    exact ⟨hdecides.capsOf_queue, hdecides.acksOf_queue.trans (List.append_nil _).symm⟩
  | clear =>
    have hdecides := clear_decides a
    exact ⟨hdecides.capsOf_queue, hdecides.acksOf_queue.trans (List.append_nil _).symm⟩
  | poll => exact absurd rfl h

/-- What an arbitrator decided comes out in order. At most one caps wait, and they are those in force.
Those that come out last are in force, or there are none because nobody asked for any. Of the
acknowledgements none is lost and none is repeated. -/
structure Delivers (a : Arbitrator) (taken : List Task) (answers : List (String × CapAck)) :
    Prop where
  waiting : capsOf a.queue = [] ∨ capsOf a.queue = [a.effective]
  latest : (capsOf (taken ++ a.queue)).getLast? = some a.effective ∨
    capsOf (taken ++ a.queue) = [] ∧ a.applied = none
  acks : acksOf (taken ++ a.queue) = answers

theorem delivers_ofConfig (identity : String) (config : Config) :
    (ofConfig identity config).Delivers [] [] where
  waiting := Or.inl rfl
  latest := Or.inr ⟨rfl, rfl⟩
  acks := rfl

variable {taken : List Task} {answers : List (String × CapAck)}

/-- To take a task from the queue only moves it. -/
theorem Delivers.poll (h : a.Delivers taken answers) :
    (a.step .poll).Delivers (taken ++ (a.taken? .poll).toList) answers := by
  obtain ⟨hwaiting, hlatest, hacks⟩ := h
  obtain ⟨identity, ceilings, lifetime, entries, applied, queue⟩ := a
  cases queue with
  | nil =>
    rw [taken?, Arbitrator.poll, Option.toList_none, List.append_nil]
    exact ⟨hwaiting, hlatest, hacks⟩
  | cons task rest =>
    have hmoved : taken ++ task :: rest = (taken ++ [task]) ++ rest := by simp
    rw [hmoved] at hlatest hacks
    refine ⟨?_, hlatest, hacks⟩
    cases task with
    | apply c =>
      -- The caps that waited were the only ones.
      rcases hwaiting with hnone | hone
      · cases hnone
      · exact Or.inl (List.cons.inj hone).2
    | ack destination message => exact hwaiting

/-- A decision and an acknowledgement are added at the end. -/
theorem Delivers.of_ne_poll (h : a.Delivers taken answers) {call : Call} (hcall : call ≠ .poll) :
    (a.step call).Delivers taken (answers ++ (a.answer? call).toList) := by
  obtain ⟨hcaps, hacks⟩ := step_queue a hcall
  have hnewAcks : acksOf (taken ++ (a.step call).queue) = answers ++ (a.answer? call).toList := by
    rw [acksOf_append, hacks, ← List.append_assoc, ← acksOf_append, h.acks]
  rcases hcaps with ⟨hsame, happlied⟩ | hnew
  · -- Nothing was decided, so what came out or waits is still in force.
    have heffective : (a.step call).effective = a.effective := by
      rw [effective, effective, happlied, step_ceilings]
    refine ⟨?_, ?_, hnewAcks⟩
    · rw [hsame, heffective]
      exact h.waiting
    · rw [capsOf_append, hsame, ← capsOf_append, heffective, happlied]
      exact h.latest
  · refine ⟨Or.inr hnew, Or.inl ?_, hnewAcks⟩
    rw [capsOf_append, hnew, List.getLast?_concat]

/-- Every operation leaves things in order. -/
theorem Delivers.step (h : a.Delivers taken answers) (call : Call) :
    (a.step call).Delivers (taken ++ (a.taken? call).toList)
      (answers ++ (a.answer? call).toList) := by
  by_cases hcall : call = .poll
  · subst hcall
    have hnone : a.answer? .poll = none := rfl
    rw [hnone, Option.toList_none, List.append_nil]
    exact h.poll
  · have hnone : a.taken? call = none := by cases call <;> trivial
    rw [hnone, Option.toList_none, List.append_nil]
    exact h.of_ne_poll hcall

/-! ### All operations -/

theorem delivers_run (identity : String) (config : Config) (calls : List Call) :
    let start := ofConfig identity config
    (start.run calls).Delivers (start.taken calls) (start.answers calls) := by
  induction calls using List.reverseRecOn with
  | nil => exact delivers_ofConfig identity config
  | append_singleton calls call ih =>
    dsimp only [Arbitrator.taken, Arbitrator.answers]
    rw [run_append_singleton, collect_append_singleton, collect_append_singleton]
    exact ih.step call

/-- Caps that nobody looked at give way to later ones, and the acknowledgement between them stays. -/
example :
    let ask (high : Nat) : CapRequest := .ofCaps (.ofHigh (.mega high)) .congestion 0 ""
    ((ofConfig "publisher" {}).run
        [.request (ask 6) "receiver-1" 0, .request (ask 4) "receiver-2" 0]).queue.map Task.isApply =
      [false, true, false] := by
  decide +kernel

end Simulcast.Arbitrator
