import Simulcast.Message.Basic
import Simulcast.Wire

/-!
# Writing control messages

A message is written as a JSON object whose first member names its kind. Bitrates are whole numbers
of bits per second, and a target that is absent has no member.

## Main definitions

* `Message.Kind` — the two kinds and their names
* `Message.toValue` — a message as a JSON value
* `Message.encode` — the octets of a message
-/

namespace Simulcast

namespace Message

/-- The kinds of message. -/
inductive Kind where
  | request
  | ack
  deriving DecidableEq

/-- The name of a kind. -/
def Kind.name : Kind → String
  | .request => "bitrate-cap"
  | .ack => "bitrate-cap-ack"

/-- The kind with this name. -/
def Kind.ofName? (s : String) : Option Kind := [Kind.request, Kind.ack].find? fun k => k.name == s

/-- The name of the member that holds the kind. -/
def kindField : String := "type"

/-- The fields of a request, in order. -/
def requestFields : List String :=
  ["version", "targetBitrateHigh", "targetBitrateMed", "targetBitrateLow", "reason", "lossRate",
    "senderIdentity"]

/-- The fields of an acknowledgement, in order. -/
def ackFields : List String := ["version", "appliedBitrateHigh", "identity"]

/-- A member for a value that may be absent. -/
def optionalMember (name : String) (r : Option Bitrate) : List Json.Member :=
  (r.map fun r => (name, r.toValue)).toList

/-- The members of a message, in the order in which they are written. -/
def toMembers : Message → List Json.Member
  | .request r =>
    [(kindField, .string Kind.request.name), ("version", .integer r.version.toNat)]
      ++ optionalMember "targetBitrateHigh" r.targets.high
      ++ optionalMember "targetBitrateMed" r.targets.medium
      ++ optionalMember "targetBitrateLow" r.targets.low
      ++ [("reason", .string r.reason.name), ("lossRate", r.lossRate.toValue),
        ("senderIdentity", .string r.identity)]
  | .ack a =>
    [(kindField, .string Kind.ack.name), ("version", .integer a.version.toNat),
      ("appliedBitrateHigh", a.appliedHigh.toValue), ("identity", .string a.identity)]

/-- A message as a JSON value. -/
def toValue (m : Message) : Json.Value := .object m.toMembers

/-- The octets of a message. -/
def encode (m : Message) : Octets := Json.print m.toValue

end Message

end Simulcast
