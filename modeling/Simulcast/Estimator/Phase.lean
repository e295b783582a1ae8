/-!
# Phases of congestion control

## Main definitions

* `Phase` — where the congestion control of a receiver stands
-/

namespace Simulcast

/-- Where the congestion control of a receiver stands. -/
inductive Phase where
  /-- No cap is asked for. -/
  | idle
  /-- The cap is being lowered. -/
  | backingOff
  /-- The cap is being raised step by step. -/
  | probing
  deriving DecidableEq, Repr

/-- The name of a phase. -/
def Phase.name : Phase → String
  | .idle => "idle"
  | .backingOff => "backing-off"
  | .probing => "probing"

end Simulcast
