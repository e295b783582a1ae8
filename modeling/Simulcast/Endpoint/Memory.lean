import Simulcast.Endpoint.Channel
import Simulcast.Endpoint.Sender

/-!
# Senders and channels in memory

A sender and a channel that do nothing but remember what they were told, and that fail on demand.

## Main definitions

* `MemorySender` — parameters that are set and read
* `MemoryChannel` — messages that wait to be collected
-/

namespace Simulcast

/-- A sender that keeps its parameters and counts how often they were set. -/
structure MemorySender where
  parameters : Parameters
  /-- Refuse to give parameters? -/
  failsToRead : Bool := false
  /-- Refuse to take parameters? -/
  failsToWrite : Bool := false
  writes : Nat := 0
  deriving DecidableEq

instance : Sender MemorySender where
  read s := (if s.failsToRead then .error (.sender "get") else .ok s.parameters, s)
  write s parameters :=
    if s.failsToWrite then (.error (.sender "set"), s)
    else (.ok (), { s with parameters, writes := s.writes + 1 })

/-- A payload on its way. -/
structure Parcel where
  destination : String
  payload : Octets
  deriving DecidableEq

/-- A channel that keeps what was sent until it is collected. -/
structure MemoryChannel where
  /-- What was sent, in order. -/
  sent : List Parcel := []
  /-- Refuse to send? -/
  isClosed : Bool := false
  deriving DecidableEq

instance : Channel MemoryChannel where
  send c payload destination :=
    if c.isClosed then (.error (.channel "closed"), c)
    else (.ok (), { c with sent := c.sent ++ [⟨destination, payload⟩] })

/-- Takes everything that was sent out of the channel. -/
def MemoryChannel.collect (c : MemoryChannel) : List Parcel × MemoryChannel :=
  (c.sent, { c with sent := [] })

end Simulcast
