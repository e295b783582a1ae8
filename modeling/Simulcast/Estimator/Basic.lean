import Simulcast.Estimator.Loss
import Simulcast.Log

/-!
# Congestion control of a receiver

For each stream it receives, a receiver decides tick by tick whether to ask the publisher for lower
caps. On congestion the cap falls by a constant factor, of the received rate at first and of the cap
itself later, and on severe congestion by a larger factor of the received rate. When the loss clears,
the receiver takes its caps back.

A publisher that never acknowledges a cap does not take part. The receiver then says so and can
choose another layer instead.

## Main definitions

* `Estimator` — the state between ticks
* `Estimator.update` — one tick
* `Estimator.acknowledge`, `Estimator.reset` — an acknowledgement, and a new subscription
* `Decision` — what a tick leads to
-/

namespace Simulcast

/-- The state of congestion control for one stream. -/
structure Estimator where
  config : Config
  history : History
  capHigh : Bitrate
  capped : Bool
  phase : Phase
  /-- Ticks without congestion, up to now. -/
  cleanTicks : UInt32
  /-- When caps were last asked for, if they have not been taken back. -/
  lastRequest : Option Time
  /-- When caps were first asked for, if they have not been taken back. -/
  firstRequest : Option Time
  acknowledged : Bool
  fallback : Bool
  deriving DecidableEq

/-- What a tick leads to. -/
structure Decision where
  /-- A request to be sent to the publisher. -/
  outbound : Option CapRequest
  /-- Stay on the high layer, since the publisher lowers its rate. -/
  lockHigh : Bool
  /-- Choose a lower layer, since the publisher does not answer. -/
  fallback : Bool
  capHigh : Bitrate
  capped : Bool
  deriving DecidableEq

namespace Estimator

/-- The state of a new subscription. -/
def ofConfig (config : Config) : Estimator where
  config := config
  history := .empty
  capHigh := config.ceilings.high
  capped := false
  phase := .idle
  cleanTicks := 0
  lastRequest := none
  firstRequest := none
  acknowledged := false
  fallback := false

/-- The publisher has acknowledged a cap. -/
def acknowledge (e : Estimator) : Estimator := { e with acknowledged := true }

/-- The state of a new subscription with the same settings. -/
def reset (e : Estimator) : Estimator := ofConfig e.config

/-! ### The cap -/

/-- The factor that a cap falls by. -/
def backoffFactor : Binary64 := 0.7

/-- The factor of the received rate under severe congestion. -/
def severeFactor : Binary64 := 0.5

/-- No cap falls below this. -/
def leastCap : Bitrate := .mega 1

/-- What a cap rises by in a tick. -/
def probeStep : Bitrate := .mega 3

/-- Ticks without congestion before the cap rises. -/
def ticksToProbe : UInt32 := 2

/-- Ticks without congestion before the cap is given up. -/
def ticksToRestore : UInt32 := 3

/-- The state without a cap. The averages start anew. -/
def uncap (e : Estimator) : Estimator :=
  { e with capHigh := e.config.ceilings.high, capped := false, phase := .idle, history := .empty }

/-- The cap after a congested tick. -/
def loweredCap (e : Estimator) (a : Assessment) : Bitrate :=
  let received : Bitrate := ⟨a.averageKilo * 1000⟩
  let target :=
    if a.severe then received * severeFactor
    else if e.capped then e.capHigh * backoffFactor
    else received * backoffFactor
  let target := target.round.clamp leastCap e.config.ceilings.high
  if e.capped then min target e.capHigh else target

/-- A congested tick. -/
def backOff (e : Estimator) (a : Assessment) : Logged Estimator := do
  let cap := e.loweredCap a
  note (.congestion a.tickLoss a.severe e.capHigh cap)
  return { e with cleanTicks := 0, phase := .backingOff, capHigh := cap, capped := true }

/-- Raises the cap by a step, or gives it up when it reaches the ceiling. -/
def raise (e : Estimator) : Logged Estimator := do
  let cap : Bitrate := ⟨e.capHigh.bps + probeStep.bps⟩
  if e.config.ceilings.high ≤ cap then
    note .probeReachedCeiling
    return e.uncap
  else
    note (.probed e.capHigh cap)
    return { e with capHigh := cap }

/-- A tick without congestion. -/
def ease (e : Estimator) : Logged Estimator := do
  let e := { e with cleanTicks := e.cleanTicks + 1 }
  if !e.capped then return e
  else if e.phase = .backingOff ∧ e.cleanTicks = 1 then
    note .lossCleared
    return e.uncap
  else if ticksToRestore ≤ e.cleanTicks then
    note (.cleanTicks e.cleanTicks)
    return e.uncap
  else if e.phase = .backingOff ∧ ticksToProbe ≤ e.cleanTicks then
    raise { e with phase := .probing }
  else if e.phase = .probing then e.raise
  else return e

/-! ### Requests -/

/-- Has enough time passed since caps were last asked for? -/
def isDue (e : Estimator) (now : Time) : Bool :=
  match e.lastRequest with
  | none => true
  | some t => e.config.interval ≤ Time.since now t

/-- Why caps are asked for. -/
def reason (e : Estimator) (a : Assessment) : Reason :=
  if a.severe then .severe
  else if a.congested then .congestion
  else if e.phase = .probing then .probe
  else .hold

/-- A loss rate with three decimals. -/
def roundedLoss (rate : Binary64) : Binary64 := (rate * 1000).round / 1000

/-- The request of a tick, if there is one: caps while there is a cap and it is time for it, and once
more the ceilings when there is a cap no longer. -/
def emit (e : Estimator) (a : Assessment) (identity : String) (now : Time) :
    Logged (Estimator × Option CapRequest) := do
  if e.capped then
    if e.isDue now then
      let caps := Caps.ofHigh e.capHigh
      note (.capSent caps (e.reason a) e.phase)
      let request := CapRequest.ofCaps caps (e.reason a) (roundedLoss a.lossRate) identity
      let e := { e with
        lastRequest := some now, firstRequest := some (e.firstRequest.getD now) }
      return (e, some request)
    else return (e, none)
  else if e.lastRequest.isSome then
    note (.restoreSent e.config.ceilings)
    let request := CapRequest.ofCaps e.config.ceilings .restore 0 identity
    return ({ e with lastRequest := none, firstRequest := none }, some request)
  else return (e, none)

/-- Is an acknowledgement overdue? -/
def isOverdue (e : Estimator) (now : Time) : Bool :=
  match e.firstRequest with
  | none => false
  | some first =>
    e.capped && !e.acknowledged && !e.fallback && e.config.ackTimeout ≤ Time.since now first

/-- Gives up on the publisher when an acknowledgement is overdue. -/
def checkAck (e : Estimator) (now : Time) : Logged Estimator := do
  if e.isOverdue now then
    note (.ackOverdue e.config.ackTimeout)
    return { e with fallback := true }
  else return e

/-- One tick: takes in a sample and decides. -/
def update (e : Estimator) (sample : InboundSample) (identity : String) (now : Time) :
    Logged (Estimator × Decision) := do
  let m := sample.measurement
  let e := { e with history := e.history.push m }
  let a := assess e.config e.history m.lost
  let e ← if a.congested then e.backOff a else e.ease
  let (e, outbound) ← e.emit a identity now
  let e ← e.checkAck now
  return (e, ⟨outbound, e.capped, e.fallback, e.capHigh, e.capped⟩)

end Estimator

end Simulcast
