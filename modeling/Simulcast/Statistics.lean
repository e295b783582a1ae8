import Simulcast.Layer

/-!
# Statistics of a tick

Once per tick a receiver is told what arrived and a publisher what was sent.

## Main definitions

* `InboundSample` — lost packets and received rate at a receiver
* `Measurement` — such a sample with everything implausible counted as nothing
* `OutboundSample` — estimate, rate and layers at a publisher
* `Limitation` — what keeps an encoder from its full quality
-/

namespace Simulcast

/-- What arrived at a receiver during one tick. -/
structure InboundSample where
  /-- Packets lost since the last tick. -/
  lost : Int
  received : Bitrate
  deriving DecidableEq

/-- A sample that the averages can be taken over. -/
structure Measurement where
  /-- Packets lost. -/
  lost : Binary64
  /-- The received rate in thousands of bits per second. -/
  kilo : Binary64
  deriving DecidableEq

/-- A sample without signal where it is negative, infinite or no number. -/
def InboundSample.measurement (s : InboundSample) : Measurement :=
  let kilo := s.received.inKilo
  ⟨.ofInt (max s.lost 0), if kilo.isFinite then max kilo 0 else 0⟩

/-- What keeps an encoder from its full quality. -/
inductive Limitation where
  | none
  | bandwidth
  | cpu
  | other
  deriving DecidableEq, Repr

namespace Limitation

/-- The name of a limitation. -/
def name : Limitation → String
  | .none => "none"
  | .bandwidth => "bandwidth"
  | .cpu => "cpu"
  | .other => "other"

/-- The limitation that statistics report under this name. Reporting none and reporting nothing is
the same. -/
def ofName (s : String) : Limitation :=
  if s = "" then .none
  else ([Limitation.none, .bandwidth, .cpu].find? fun l => l.name == s).getD .other

end Limitation

/-- What an encoder does with one layer. -/
structure LayerState where
  rid : Option Rid
  /-- Frames per second. -/
  fps : Binary64
  limitation : Limitation
  deriving DecidableEq

/-- What a publisher sent during one tick. -/
structure OutboundSample where
  /-- The bandwidth the transport believes to have, if it has an estimate. -/
  estimate : Option Bitrate
  /-- The rate of everything that was sent. -/
  sent : Bitrate
  layers : List LayerState
  deriving DecidableEq

end Simulcast
