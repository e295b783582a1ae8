import Simulcast.Layer
import Simulcast.Time

/-!
# Settings

What the parts of the system have in common: the ceilings of the layers, how long things last, and
how much loss counts as congestion.

## Main definitions

* `Config` — the settings, with their usual values as defaults
-/

namespace Simulcast

/-- The settings of one stream. -/
structure Config where
  /-- The caps of a sender that nobody restricts, and the most anyone can ask for. -/
  ceilings : Caps := .standard
  /-- How long the cap of a receiver stays in force without being renewed. -/
  lifetime : Time := 15000
  /-- The least time between two requests during one congestion. -/
  interval : Time := 2000
  /-- How long a receiver waits for an acknowledgement before it gives up on the publisher. -/
  ackTimeout : Time := 10000
  /-- Loss above this rate is congestion. -/
  congestionLoss : Binary64 := 0.005
  /-- Loss above this rate is severe congestion. -/
  severeLoss : Binary64 := 0.02
  deriving DecidableEq

end Simulcast
