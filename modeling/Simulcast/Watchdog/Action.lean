import Simulcast.Encodings

/-!
# Actions of the watchdog

What the watchdog does to a sender whose layers are starved, from setting the limits anew to forcing
every layer back on.

## Main definitions

* `Action` — a kind of action and the caps it sets
* `Action.apply` — the parameters after an action
-/

namespace Simulcast

/-- The kinds of action. -/
inductive Action.Kind where
  /-- Sets all limits anew, to wake up a stuck estimate. -/
  | kick
  /-- Gives up the low layer in favour of the high one. -/
  | rescue
  /-- Forces every layer back on, with high frame rates. -/
  | hardRescue
  /-- Brings back the low layer. -/
  | restoreLow
  deriving DecidableEq, Repr

/-- The name of a kind of action. -/
def Action.Kind.name : Action.Kind → String
  | .kick => "kick"
  | .rescue => "rescue"
  | .hardRescue => "hard-rescue"
  | .restoreLow => "restore-low"

/-- Something to be done to a sender. -/
structure Action where
  kind : Action.Kind
  caps : Caps
  deriving DecidableEq

namespace Action

/-- The frame rate that a hard rescue allows a layer. -/
def rescueFramerate : Layer → Binary64
  | .low => 30
  | _ => 60

/-- Switches an encoding on, with a limit. -/
def revive (cap : Bitrate) (e : Encoding) : Encoding :=
  { e with active := true, maxBitrate := some cap }

/-- The parameters after the action. -/
def apply (a : Action) (p : Parameters) : Parameters :=
  match a.kind with
  | .kick => p.setCaps a.caps
  | .rescue =>
    (p.modify .low fun e => { e with active := false }).modify .high (revive a.caps.high)
  | .hardRescue =>
    let on : Parameters := ⟨p.encodings.map fun e => { e with active := true }⟩
    Layer.all.foldl
      (fun p l => p.modify l fun e =>
        { e with maxBitrate := some (a.caps.get l), maxFramerate := some (rescueFramerate l) })
      on
  | .restoreLow => p.modify .low (revive a.caps.low)

end Action

end Simulcast
