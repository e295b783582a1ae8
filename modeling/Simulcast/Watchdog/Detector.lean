import Simulcast.Config
import Simulcast.Log
import Simulcast.Statistics

/-!
# Detecting starved layers

The bandwidth estimate of a transport can get stuck at a low value, or the transport can pause the
high layer altogether. No cap of a receiver would ever undo that, so the watchdog looks at the
statistics of the sender every tick and acts when it sees such a pattern.

## Main definitions

* `Watchdog` — what is counted from tick to tick
* `Watchdog.evaluate` — the actions of a tick
* `isHighPaused` — is the high layer paused in favour of others?
-/

namespace Simulcast

/-- Does the layer stand for the high one? -/
def LayerState.isHigh (l : LayerState) : Bool :=
  match l.rid with
  | some rid => rid.text == "f" || rid.text == "single"
  | none => false

/-- Is the layer without frames for lack of bandwidth? -/
def LayerState.isPaused (l : LayerState) : Bool := l.fps.same 0 && l.limitation == .bandwidth

/-- Is the high layer paused? That needs a second layer it could give way to. Without a layer that
has the rid of the high one, the first layer counts as that. -/
def isHighPaused (layers : List LayerState) : Bool :=
  match layers with
  | first :: _ :: _ => ((layers.find? LayerState.isHigh).getD first).isPaused
  | _ => false

/-- What the watchdog of a sender counts. -/
structure Watchdog where
  ceilings : Caps
  /-- Ticks in a row with a low estimate and a low rate. -/
  starvedTicks : Nat
  /-- Was there a kick? There is only one. -/
  kicked : Bool
  /-- Ticks in a row with the high layer paused, since the last hard rescue. -/
  pausedTicks : Nat
  /-- Has the low layer been given up and not been brought back? -/
  lowDisabled : Bool
  /-- Ticks since the low layer was given up. -/
  restoreTicks : Nat
  deriving DecidableEq

namespace Watchdog

/-- Below this estimate a transport may be stuck. -/
def stuckEstimate : Bitrate := .kilo 2000

/-- Below this rate a transport may be stuck. -/
def stuckRate : Bitrate := .kilo 1000

/-- Ticks until a kick. -/
def ticksToKick : Nat := 5

/-- Ticks until a rescue. -/
def ticksToRescue : Nat := 3

/-- Ticks until a hard rescue. -/
def ticksToHardRescue : Nat := 15

/-- From this estimate on the low layer comes back early. -/
def ampleEstimate : Bitrate := .kilo 10000

/-- Ticks until the low layer comes back in any case. -/
def ticksToRestore : Nat := 10

/-- A watchdog that has seen nothing yet. -/
def ofCeilings (ceilings : Caps) : Watchdog := ⟨ceilings, 0, false, 0, false, 0⟩

/-- Forgets everything but the ceilings. -/
def reset (w : Watchdog) : Watchdog := ofCeilings w.ceilings

/-- Is the sender starved in this tick? -/
def isStarved (s : OutboundSample) : Bool :=
  (match s.estimate with
    | some estimate => estimate < stuckEstimate
    | none => false) && s.sent < stuckRate

/-- Is there bandwidth in plenty? -/
def isAmple (s : OutboundSample) : Bool :=
  match s.estimate with
  | some estimate => ampleEstimate ≤ estimate
  | none => false

/-- Counts starved ticks and decides on a kick. -/
def watchEstimate (w : Watchdog) (s : OutboundSample) : Watchdog × List Action.Kind :=
  if !w.kicked && isStarved s then
    let ticks := w.starvedTicks + 1
    if ticksToKick ≤ ticks then ({ w with starvedTicks := ticks, kicked := true }, [.kick])
    else ({ w with starvedTicks := ticks }, [])
  else ({ w with starvedTicks := 0 }, [])

/-- Counts ticks with the high layer paused and decides on a rescue. -/
def watchHigh (w : Watchdog) (s : OutboundSample) : Watchdog × List Action.Kind :=
  let ticks := if isHighPaused s.layers then w.pausedTicks + 1 else 0
  if ticks = ticksToRescue then
    ({ w with pausedTicks := ticks, lowDisabled := true, restoreTicks := 0 }, [.rescue])
  else if ticks = ticksToHardRescue then ({ w with pausedTicks := 0 }, [.hardRescue])
  else ({ w with pausedTicks := ticks }, [])

/-- Counts ticks with the low layer given up and decides on its return. -/
def watchLow (w : Watchdog) (s : OutboundSample) : Watchdog × List Action.Kind :=
  if w.lowDisabled then
    let ticks := w.restoreTicks + 1
    if isAmple s || ticksToRestore ≤ ticks then
      ({ w with lowDisabled := false, restoreTicks := 0 }, [.restoreLow])
    else ({ w with restoreTicks := ticks }, [])
  else (w, [])

/-- The kinds of action of a tick, in the order in which they are to be done. -/
def step (w : Watchdog) (s : OutboundSample) : Watchdog × List Action.Kind :=
  let (w, kick) := w.watchEstimate s
  let (w, rescue) := w.watchHigh s
  let (w, restore) := w.watchLow s
  (w, kick ++ rescue ++ restore)

/-- The actions of a tick. They set the caps in force, or the ceilings if there are none. -/
def evaluate (w : Watchdog) (s : OutboundSample) (applied : Option Caps) :
    Logged (Watchdog × List Action) :=
  let caps := applied.getD w.ceilings
  let (w, kinds) := w.step s
  let actions := kinds.map fun kind => ⟨kind, caps⟩
  ⟨(w, actions), actions.map .watchdog⟩

end Watchdog

end Simulcast
