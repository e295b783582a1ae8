import Simulcast.Layer

/-!
# The encodings of a sender

A sender has a list of encodings, normally one for each layer. They are told apart by their rids; a
sender without simulcast has a single encoding that may go without one. Rids that name no layer and
rids that occur more than once are allowed, and of several encodings of one layer the first counts.

## Main definitions

* `Encoding` — what a sender is told about one encoding
* `Parameters` — all encodings of a sender
* `Parameters.layerOf?` — the layer that an encoding carries
* `Parameters.modify` — a change to the encoding of a layer
* `Parameters.setCaps` — the caps as limits of the encodings
-/

namespace Simulcast

/-- What a sender is told about one encoding. -/
structure Encoding where
  rid : Option Rid
  maxBitrate : Option Bitrate
  maxFramerate : Option Binary64
  active : Bool
  deriving DecidableEq

/-- An active encoding without limits. -/
def Encoding.unlimited (rid : Option Rid) : Encoding := ⟨rid, none, none, true⟩

/-- The encodings of a sender. -/
structure Parameters where
  encodings : List Encoding
  deriving DecidableEq

namespace Parameters

/-- A sender with an encoding for each layer. -/
def simulcast : Parameters := ⟨Layer.all.map fun l => .unlimited (some l.rid)⟩

/-- A sender with one encoding that has no rid. -/
def single : Parameters := ⟨[.unlimited none]⟩

/-- The layer of an encoding among `count` encodings. A sole encoding without rid is the high
layer. -/
def layerIn (count : Nat) (e : Encoding) : Option Layer :=
  match e.rid with
  | some rid => Layer.ofName? rid.text
  | none => if count = 1 then some .high else none

/-- The layer of the encoding at this index. -/
def layerOf? (p : Parameters) (index : Nat) : Option Layer :=
  p.encodings[index]?.bind (layerIn p.encodings.length)

/-- The index of the first encoding of a layer. -/
def indexOf? (p : Parameters) (layer : Layer) : Option Nat :=
  p.encodings.findIdx? fun e => layerIn p.encodings.length e == some layer

/-- The first encoding of a layer. -/
def encoding? (p : Parameters) (layer : Layer) : Option Encoding :=
  (p.indexOf? layer).bind fun i => p.encodings[i]?

/-- Changes the first encoding of a layer, if there is one. -/
def modify (p : Parameters) (layer : Layer) (f : Encoding → Encoding) : Parameters :=
  match p.indexOf? layer with
  | some i => ⟨p.encodings.modify i f⟩
  | none => p

/-- Limits the encoding of each layer to its cap. -/
def setCaps (p : Parameters) (caps : Caps) : Parameters :=
  Layer.all.foldl (fun p l => p.modify l fun e => { e with maxBitrate := some (caps.get l) }) p

end Parameters

end Simulcast
