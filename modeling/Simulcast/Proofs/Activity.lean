import Simulcast.Proofs.Limits

/-!
# What actions do to the encoding of a layer

An action tells a sender something about some of its layers, and the first encoding of each layer
changes accordingly, while layers without an encoding stay without one. Whether an encoding is
active afterwards is decided by the last action that switches its layer on or off. Setting limits
does neither.

## Main definitions

* `Action.change` — what an action does to the encoding of a layer
* `Action.Kind.switch` — whether a kind of action switches a layer on or off
* `Action.Kind.isOn` — whether a layer is on after several actions

## Main results

* `Action.encoding?_apply` — an action changes the encoding of each layer
* `Action.active_foldl_change` — whether it is active after several actions
-/

namespace Simulcast.Action

variable {p : Parameters} {l : Layer}

/-- What an action does to the encoding of a layer. -/
def change (a : Action) (l : Layer) (e : Encoding) : Encoding :=
  match a.kind, l with
  | .kick, l => { e with maxBitrate := some (a.caps.get l) }
  | .rescue, .high => revive a.caps.high e
  | .rescue, .medium => e
  | .rescue, .low => { e with active := false }
  | .hardRescue, l =>
    { e with
      active := true, maxBitrate := some (a.caps.get l), maxFramerate := some (rescueFramerate l) }
  | .restoreLow, .low => revive a.caps.low e
  | .restoreLow, _ => e

theorem rid_revive (cap : Bitrate) (e : Encoding) : (revive cap e).rid = e.rid := rfl

/-- An action changes the encoding of each layer, and it does not move any. -/
theorem encoding?_apply (a : Action) (p : Parameters) (l : Layer) :
    (a.apply p).encoding? l = (p.encoding? l).map (a.change l) := by
  obtain ⟨kind, caps⟩ := a
  -- An action is a sequence of changes to one layer each. Those to other layers do not matter.
  cases kind with
  | kick =>
    simp only [apply, Parameters.setCaps, Layer.all, List.foldl_cons, List.foldl_nil,
      Parameters.encoding?_modify, implies_true]
    cases l <;> rfl
  | rescue =>
    simp only [apply, Parameters.encoding?_modify (rid_revive _), Parameters.encoding?_modify,
      implies_true]
    cases l with
    | high => rfl
    | medium => exact Option.map_id_apply.symm
    | low => rfl
  | hardRescue =>
    simp only [apply, Layer.all, List.foldl_cons, List.foldl_nil, Parameters.encoding?_modify,
      Parameters.encoding?_map, implies_true]
    cases p.encoding? l with
    | none => cases l <;> rfl
    | some e => cases l <;> rfl
  | restoreLow =>
    simp only [apply, Parameters.encoding?_modify (rid_revive _)]
    cases l with
    | high => exact Option.map_id_apply.symm
    | medium => exact Option.map_id_apply.symm
    | low => rfl

theorem encoding?_foldl_apply (actions : List Action) (p : Parameters) (l : Layer) :
    (actions.foldl (fun p a => a.apply p) p).encoding? l =
      (p.encoding? l).map fun e => actions.foldl (fun e a => a.change l e) e := by
  induction actions generalizing p with
  | nil => exact Option.map_id_apply.symm
  | cons a actions ih =>
    rw [List.foldl_cons, ih, encoding?_apply, Option.map_map]
    rfl

/-! ### On and off -/

/-- Does an action of this kind switch the layer on or off? -/
def Kind.switch : Kind → Layer → Option Bool
  | .kick, _ => none
  | .rescue, .high => some true
  | .rescue, .medium => none
  | .rescue, .low => some false
  | .hardRescue, _ => some true
  | .restoreLow, .low => some true
  | .restoreLow, _ => none

/-- Is the layer on after actions of these kinds? The last one that switches it decides. -/
def Kind.isOn (l : Layer) (on : Bool) (kinds : List Kind) : Bool :=
  kinds.foldl (fun on kind => (kind.switch l).getD on) on

theorem active_change (a : Action) (l : Layer) (e : Encoding) :
    (a.change l e).active = (a.kind.switch l).getD e.active := by
  obtain ⟨kind, caps⟩ := a
  cases kind <;> cases l <;> rfl

/-- Whether an encoding is active after several actions. -/
theorem active_foldl_change (actions : List Action) (l : Layer) (e : Encoding) :
    (actions.foldl (fun e a => a.change l e) e).active =
      Kind.isOn l e.active (actions.map Action.kind) := by
  induction actions generalizing e with
  | nil => rfl
  | cons a actions ih =>
    rw [List.foldl_cons, ih, active_change]
    rfl

theorem Kind.isOn_append (l : Layer) (on : Bool) (kinds others : List Kind) :
    isOn l on (kinds ++ others) = isOn l (isOn l on kinds) others :=
  List.foldl_append ..

/-- Kicks switch nothing. -/
theorem Kind.isOn_of_kicks {kinds : List Kind} (h : ∀ kind ∈ kinds, kind = .kick) (l : Layer)
    (on : Bool) : isOn l on kinds = on := by
  induction kinds with
  | nil => rfl
  | cons kind kinds ih =>
    obtain rfl : kind = .kick := h kind (by simp)
    exact ih fun other hother => h other (by simp [hother])

end Simulcast.Action
