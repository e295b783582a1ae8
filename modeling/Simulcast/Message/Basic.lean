import Simulcast.Layer

/-!
# Control messages

A receiver that sees congestion asks the publisher for lower caps, and the publisher answers with the
cap of the high layer that is now in force. Both kinds of message carry the version of the protocol
and the identity of their sender.

## Main definitions

* `Reason` — why a receiver asks for caps
* `CapRequest`, `CapAck` — the two kinds of message
* `Message` — either of them
* `clampLoss` — a loss rate as it is sent and kept
-/

namespace Simulcast

/-- The version of the protocol that is spoken here. -/
def protocolVersion : UInt32 := 1

/-- Why a receiver asks for caps. -/
inductive Reason where
  /-- Loss above the threshold of congestion. -/
  | congestion
  /-- Loss above the threshold of severe congestion. -/
  | severe
  /-- The cap is raised step by step. -/
  | probe
  /-- The cap is the same as before. -/
  | hold
  /-- The receiver is no longer congested. -/
  | restore
  /-- No reason that is known here. -/
  | unknown
  deriving DecidableEq, Repr

namespace Reason

/-- The reasons that have a name of their own. -/
def known : List Reason := [.congestion, .severe, .probe, .hold, .restore]

/-- The name of a reason. -/
def name : Reason → String
  | .congestion => "congestion"
  | .severe => "severe"
  | .probe => "probe"
  | .hold => "hold"
  | .restore => "restore"
  | .unknown => "unknown"

/-- The reason with this name, unknown if there is none. -/
def ofName (s : String) : Reason := (known.find? fun r => r.name == s).getD .unknown

end Reason

/-- A loss rate between zero and one. What is not finite counts as no loss. -/
def clampLoss (x : Binary64) : Binary64 :=
  if x.isFinite then
    if x < 0 then 0 else if 1 < x then 1 else x
  else 0

/-- A receiver asks for caps. -/
structure CapRequest where
  version : UInt32
  targets : Caps.Targets
  reason : Reason
  lossRate : Binary64
  /-- The identity of the receiver as it gives it. -/
  identity : String
  deriving DecidableEq

namespace CapRequest

/-- A request for given caps. -/
def ofCaps (caps : Caps) (reason : Reason) (lossRate : Binary64) (identity : String) : CapRequest :=
  ⟨protocolVersion, ⟨some caps.high, some caps.medium, some caps.low⟩, reason, clampLoss lossRate,
    identity⟩

/-- The caps that the request stands for under the given ceilings. -/
def caps (r : CapRequest) (ceilings : Caps) : Caps := .sanitize r.targets ceilings

end CapRequest

/-- The publisher says which cap of the high layer is in force. -/
structure CapAck where
  version : UInt32
  appliedHigh : Bitrate
  /-- The identity of the publisher. -/
  identity : String
  deriving DecidableEq

namespace CapAck

/-- An acknowledgement of the version spoken here. -/
def ofHigh (appliedHigh : Bitrate) (identity : String) : CapAck :=
  ⟨protocolVersion, appliedHigh, identity⟩

end CapAck

/-- A control message. -/
inductive Message where
  | request (r : CapRequest)
  | ack (a : CapAck)
  deriving DecidableEq

namespace Message

/-- The version of the protocol a message is written in. -/
def version : Message → UInt32
  | .request r => r.version
  | .ack a => a.version

/-- Equality as numbers of rates that may be absent. -/
def sameTarget : Option Bitrate → Option Bitrate → Bool
  | none, none => true
  | some r, some s => r.same s
  | _, _ => false

/-- Equality of messages, with rates compared as numbers. -/
def same : Message → Message → Bool
  | .request r, .request s =>
    r.version == s.version && sameTarget r.targets.high s.targets.high &&
      sameTarget r.targets.medium s.targets.medium && sameTarget r.targets.low s.targets.low &&
      r.reason == s.reason && r.lossRate.same s.lossRate && r.identity == s.identity
  | .ack a, .ack b =>
    a.version == b.version && a.appliedHigh.same b.appliedHigh && a.identity == b.identity
  | _, _ => false

end Message

end Simulcast
