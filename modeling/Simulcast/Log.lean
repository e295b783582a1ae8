import Simulcast.Error
import Simulcast.Estimator.Phase
import Simulcast.Message.Basic
import Simulcast.Time
import Simulcast.Watchdog.Action

/-!
# The log

Everything of note is logged, with a level and one line of text. The parts of the system do not write
lines, they return events next to their results, in the order in which things happened.

## Main definitions

* `Event` — what can be noted
* `Event.level`, `Event.text` — how it is logged
* `Log.lines` — the lines of a sequence of events
* `Logged` — a result together with the events on the way to it
-/

namespace Simulcast

/-- How much a line of the log matters. -/
inductive Level where
  | trace
  | debug
  | info
  deriving DecidableEq, Repr

/-- The name of a level. -/
def Level.name : Level → String
  | .trace => "TRACE"
  | .debug => "DEBUG"
  | .info => "INFO"

/-- Something of note. -/
inductive Event where
  /-- A receiver lowers its cap. -/
  | congestion (tickLoss : Binary64) (severe : Bool) (before after : Bitrate)
  /-- The first tick without congestion. -/
  | lossCleared
  /-- Enough ticks in a row without congestion. -/
  | cleanTicks (count : UInt32)
  /-- A receiver raises its cap. -/
  | probed (before after : Bitrate)
  /-- A receiver raised its cap up to the ceiling. -/
  | probeReachedCeiling
  /-- A receiver asks for caps. -/
  | capSent (caps : Caps) (reason : Reason) (phase : Phase)
  /-- A receiver takes its caps back. -/
  | restoreSent (caps : Caps)
  /-- No acknowledgement arrived in time. -/
  | ackOverdue (timeout : Time)
  /-- A request arrived at the publisher. -/
  | capReceived (identity : String) (caps : Caps) (reason : Reason) (lossRate : Binary64)
  /-- The caps in force have changed. -/
  | capApplied (caps : Caps)
  /-- The cap of a receiver was not renewed in time. -/
  | capExpired (identity : String)
  /-- No cap is left. -/
  | allExpired (caps : Caps)
  /-- The watchdog acts. -/
  | watchdog (action : Action)
  /-- The sender did not take a change. -/
  | applyFailed (what : String) (error : Error)
  /-- The channel did not take a message. -/
  | sendFailed (identity : String) (error : Error)
  /-- An acknowledgement arrived at a publisher. -/
  | ackAtPublisher (source : String)
  /-- A request arrived at a receiver. -/
  | requestAtReceiver (source : String)
  /-- An acknowledgement of someone who is not the publisher. -/
  | foreignAck (source : String)
  /-- An acknowledgement of the publisher. -/
  | ackReceived (source : String) (applied : Bitrate)

namespace Event

/-- The level an event is logged at. -/
def level : Event → Level
  | .ackOverdue _ | .allExpired _ | .watchdog _ => .info
  | .ackAtPublisher _ | .requestAtReceiver _ | .foreignAck _ => .trace
  | _ => .debug

/-- The line that is logged for an event. -/
def text : Event → String
  | .congestion tickLoss severe before after =>
    "Congestion loss " ++ (tickLoss * 100).fixed 2 ++ "% severe "
      ++ (if severe then "true" else "false") ++ " cap " ++ before.text ++ " -> " ++ after.text
  | .lossCleared => "Loss cleared, restore immediately"
  | .cleanTicks count => toString count.toNat ++ " clean ticks, restore"
  | .probed before after => "Probe " ++ before.text ++ " -> " ++ after.text
  | .probeReachedCeiling => "Probe reached ceiling, restore"
  | .capSent caps reason phase =>
    "Send cap " ++ caps.text ++ " reason " ++ reason.name ++ " phase " ++ phase.name
  | .restoreSent caps => "Send restore " ++ caps.text
  | .ackOverdue timeout =>
    "No cap ack after " ++ timeout.text ++ ", falling back to layer control"
  | .capReceived identity caps reason lossRate =>
    "Cap from " ++ identity ++ ": " ++ caps.text ++ " reason " ++ reason.name ++ " loss "
      ++ lossRate.plain
  | .capApplied caps => "Apply arbitrated cap " ++ caps.text
  | .capExpired identity => "Cap from " ++ identity ++ " expired"
  | .allExpired caps => "All caps expired, restore " ++ caps.text
  | .watchdog action => "Watchdog " ++ action.kind.name ++ ": " ++ action.caps.text
  | .applyFailed what error => "Failed to apply " ++ what ++ ": " ++ error.text
  | .sendFailed identity error =>
    "Failed to send control message to " ++ identity ++ ": " ++ error.text
  | .ackAtPublisher source => "Ignore cap ack from " ++ source ++ " on publishing side"
  | .requestAtReceiver source => "Ignore cap request from " ++ source ++ " on receiving side"
  | .foreignAck source => "Ignore cap ack from " ++ source
  | .ackReceived source applied => "Cap ack from " ++ source ++ " applied " ++ applied.text

/-- Is it the end of one receiver's cap? -/
def isExpiry : Event → Bool
  | .capExpired _ => true
  | _ => false

end Event

namespace Log

/-- Events with the expiries among them, where several follow each other, in the order of their
texts. Caps that expire together do so in no order of their own. -/
def arrange (events : List Event) : List Event :=
  (events.splitBy fun e f => e.isExpiry && f.isExpiry).flatMap fun run =>
    run.mergeSort fun e f => e.text ≤ f.text

/-- The lines of a sequence of events. -/
def lines (events : List Event) : List (Level × String) :=
  (arrange events).map fun e => (e.level, e.text)

end Log

/-- A result together with the events on the way to it. -/
structure Logged (α : Type) where
  value : α
  events : List Event

namespace Logged

instance : Monad Logged where
  pure a := ⟨a, []⟩
  bind x f :=
    let y := f x.value
    ⟨y.value, x.events ++ y.events⟩

variable {α β : Type}

@[simp] theorem value_pure (a : α) : (pure a : Logged α).value = a := rfl

@[simp] theorem value_bind (x : Logged α) (f : α → Logged β) :
    (x >>= f).value = (f x.value).value := rfl

@[simp] theorem value_map (f : α → β) (x : Logged α) : (f <$> x).value = f x.value := rfl

end Logged

/-- Notes some events. -/
def noteAll (events : List Event) : Logged Unit := ⟨(), events⟩

/-- Notes an event. -/
def note (e : Event) : Logged Unit := noteAll [e]

end Simulcast
