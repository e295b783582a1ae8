import Simulcast.Endpoint.Sender
import Simulcast.Proofs.Limits

/-!
# Senders under a sequence of actions

A sender is only known by its two operations. What it is told to do is an attempt, which it may
refuse, and a refusal is all there is to see of it. This file follows the limits of its layers
through several attempts, once for a sender that is known to take them all, and once for a sender
that never refuses.

## Main definitions

* `Sender.Holds` — a view of the parameters that a sender has
* `Sender.NeverFails` — states from which neither operation ever fails
* `Sender.attempt`, `Sender.attemptAll` — what a sender makes of actions
* `Sender.takesAll` — none of the actions is refused

## Main results

* `Sender.Holds.attemptAll_of_good` — what a sender that never fails holds after several actions
* `Sender.limit?_attemptAll_of_obeys` — a limit is what the actions that concern it say
-/

namespace Simulcast.Sender

variable {σ : Type} [Sender σ] {held : σ → Parameters} {good : σ → Prop} {s : σ}
  {actions : List Action} {caps : Caps} {l : Layer}

/-- A view of the parameters that a sender has: they are what is read, reading leaves them alone,
and setting them puts others in their place. -/
structure Holds (held : σ → Parameters) : Prop where
  read : ∀ s p s', Sender.read s = (.ok p, s') → p = held s ∧ held s' = held s
  write : ∀ s p s', Sender.write s p = (.ok (), s') → held s' = p

/-- From these states neither operation fails, nor leads to any other state. -/
structure NeverFails (good : σ → Prop) : Prop where
  read : ∀ s, good s → ∃ p s', Sender.read s = (.ok p, s') ∧ good s'
  write : ∀ s p, good s → ∃ s', Sender.write s p = (.ok (), s') ∧ good s'

/-- The sender after an action, and whether it took it. -/
def attempt (s : σ) (a : Action) : Bool × σ := (update s a.kind.name a.apply).value

/-- The sender after several actions. -/
def attemptAll (s : σ) (actions : List Action) : σ := actions.foldl (fun s a => (attempt s a).2) s

theorem attemptAll_append (s : σ) (actions others : List Action) :
    attemptAll s (actions ++ others) = attemptAll (attemptAll s actions) others := by
  rw [attemptAll, List.foldl_append]
  rfl

/-- Does the sender take every one of the actions? -/
def takesAll : σ → List Action → Bool
  | _, [] => true
  | s, a :: actions => (attempt s a).1 && takesAll (attempt s a).2 actions

/-- What an update is called is only noted. -/
theorem update_value (s : σ) (what what' : String) (change : Parameters → Parameters) :
    (update s what change).value = (update s what' change).value := by
  unfold update
  split <;> rfl

/-- An update that succeeds has changed what the sender holds. -/
theorem Holds.update (h : Holds held) {what : String} {change : Parameters → Parameters}
    (htaken : (Sender.update s what change).value.1 = true) :
    held (Sender.update s what change).value.2 = change (held s) := by
  -- Success excludes all cases but one: both operations succeed and there is an encoding.
  unfold Sender.update tryUpdate at htaken ⊢
  cases hread : Sender.read s with
  | mk result s₁ =>
    cases result with
    | error e => simp [hread] at htaken
    | ok p =>
      obtain ⟨rfl, -⟩ := h.read s p s₁ hread
      by_cases hempty : (held s).encodings.isEmpty = true
      · simp [hread, hempty] at htaken
      · cases hwrite : Sender.write s₁ (change (held s)) with
        | mk result s₂ =>
          cases result with
          | error e => simp [hread, hempty, hwrite] at htaken
          | ok u =>
            have hheld := h.write s₁ _ s₂ hwrite
            simpa [hread, hempty, hwrite] using hheld

/-- From a good state the only reason to refuse is that there is no encoding at all. -/
theorem update_of_good (h : Holds held) (hfails : NeverFails good) (hs : good s) (what : String)
    (change : Parameters → Parameters) :
    good (Sender.update s what change).value.2 ∧
      ((Sender.update s what change).value.1 = true ∨
        ((held s).encodings = [] ∧ held (Sender.update s what change).value.2 = held s)) := by
  obtain ⟨p, s₁, hread, hs₁⟩ := hfails.read s hs
  obtain ⟨rfl, hheld⟩ := h.read s p s₁ hread
  obtain ⟨s₂, hwrite, hs₂⟩ := hfails.write s₁ (change (held s)) hs₁
  unfold Sender.update tryUpdate
  by_cases hempty : (held s).encodings.isEmpty = true
  · simp only [hread, hempty, if_true]
    exact ⟨hs₁, Or.inr ⟨List.isEmpty_iff.1 hempty, hheld⟩⟩
  · simp only [hread, hempty, hwrite]
    exact ⟨hs₂, Or.inl rfl⟩

/-- The limits after each action are those that the action sets. -/
def Obeys (held : σ → Parameters) : σ → List Action → Prop
  | _, [] => True
  | s, a :: actions =>
    (∀ l, (held (attempt s a).2).limit? l = (a.apply (held s)).limit? l) ∧
      Obeys held (attempt s a).2 actions

theorem Holds.obeys_of_takesAll (h : Holds held) (hall : takesAll s actions = true) :
    Obeys held s actions := by
  induction actions generalizing s with
  | nil => trivial
  | cons a actions ih =>
    obtain ⟨hfirst, hrest⟩ := (Bool.and_eq_true ..).mp hall
    exact ⟨fun l => congrArg (·.limit? l) (h.update hfirst), ih hrest⟩

theorem limit?_of_encodings_eq_nil {p : Parameters} (h : p.encodings = []) : p.limit? l = none := by
  simp [Parameters.limit?, Parameters.encoding?, Parameters.indexOf?, h]

/-- A sender that never fails obeys, and does not come to fail. -/
theorem Holds.obeys_of_good (h : Holds held) (hfails : NeverFails good) (hs : good s) :
    Obeys held s actions ∧ good (attemptAll s actions) := by
  induction actions generalizing s with
  | nil => exact ⟨trivial, hs⟩
  | cons a actions ih =>
    obtain ⟨hgood, htaken⟩ := update_of_good h hfails hs a.kind.name a.apply
    refine ⟨⟨fun l => ?_, (ih hgood).1⟩, (ih hgood).2⟩
    rcases htaken with htrue | ⟨hempty, hheld⟩
    · exact congrArg (·.limit? l) (h.update htrue)
    · -- Without encodings there is no limit to set.
      rw [attempt, hheld, Action.limit?_apply, limit?_of_encodings_eq_nil hempty]
      simp

/-- A sender that never fails ends up with what the actions make of its parameters. -/
theorem Holds.attemptAll_of_good (h : Holds held) (hfails : NeverFails good) (hs : good s) :
    held (attemptAll s actions) = actions.foldl (fun p a => a.apply p) (held s) := by
  induction actions generalizing s with
  | nil => rfl
  | cons a actions ih =>
    obtain ⟨hgood, htaken⟩ := update_of_good h hfails hs a.kind.name a.apply
    have hfirst : held (attempt s a).2 = a.apply (held s) := by
      rcases htaken with htrue | ⟨hempty, hheld⟩
      · exact h.update htrue
      · rw [a.apply_of_encodings_eq_nil hempty]
        exact hheld
    rw [List.foldl_cons, ← hfirst]
    exact ih hgood

/-- A limit is what the actions that concern it say, if they all say the same, and otherwise it is
what it was. -/
theorem limit?_attemptAll_of_obeys (hobeys : Obeys held s actions)
    (hcaps : ∀ a ∈ actions, a.caps = caps) :
    (held (attemptAll s actions)).limit? l =
      if ∃ a ∈ actions, a.kind.sets l = true then
        ((held s).limit? l).map fun _ => some (caps.get l)
      else (held s).limit? l := by
  -- The first action changes the state that the induction hypothesis speaks about.
  induction actions generalizing s with
  | nil => simp [attemptAll]
  | cons a actions ih =>
    obtain ⟨hfirst, hrest⟩ := hobeys
    obtain rfl : a.caps = caps := hcaps a (by simp)
    have hlimit := (hfirst l).trans (a.limit?_apply (held s) l)
    have hlater := ih hrest fun b hb => hcaps b (by simp [hb])
    rw [hlimit] at hlater
    rw [attemptAll, List.foldl_cons]
    refine hlater.trans ?_
    -- If the first action sets the limit, later ones set it to the same again.
    by_cases hsets : a.kind.sets l = true
    · simp [hsets, Function.comp_def]
    · simp [hsets]

end Simulcast.Sender
