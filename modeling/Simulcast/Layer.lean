import Simulcast.Bitrate
import Simulcast.Rid

/-!
# Simulcast layers and their caps

A sender encodes its video three times, at full, half and quarter resolution. Each of these layers
has a ceiling for its bitrate, and the three ceilings together are the caps.

What a receiver asks for is turned into caps that a sender can honour: missing values are derived
from the high layer, every value is held between a floor and a ceiling, and at last the layers are
pulled apart so that each is below the next higher one.

## Main definitions

* `Layer` — high, medium and low, with their rids
* `Caps` — a bitrate per layer
* `Caps.min` — the layer-wise minimum of two caps
* `Caps.sanitize` — the caps that an incomplete or unreasonable request stands for
-/

namespace Simulcast

/-- The layers of a simulcast sender. -/
inductive Layer where
  | high
  | medium
  | low
  deriving DecidableEq, Repr

namespace Layer

/-- All layers from high to low. -/
def all : List Layer := [.high, .medium, .low]

/-- The rid of the layer as a text. -/
def name : Layer → String
  | .high => "f"
  | .medium => "h"
  | .low => "q"

/-- The rid of the encoding that carries the layer. -/
def rid (l : Layer) : Rid := .ofString l.name

/-- The layer with this rid. -/
def ofName? (s : String) : Option Layer := all.find? fun l => l.name == s

end Layer

/-- A bitrate for each layer. -/
structure Caps where
  high : Bitrate
  medium : Bitrate
  low : Bitrate
  deriving DecidableEq, Inhabited

namespace Caps

/-- The ceilings of a sender nobody restricts. -/
def standard : Caps := ⟨.kilo 15000, .kilo 5000, .kilo 1500⟩

/-- The lowest values a receiver can ask for. -/
def floor : Caps := ⟨.kilo 500, .kilo 300, .kilo 200⟩

/-- The medium layer's share of the high layer. -/
def mediumShare : Binary64 := 0.33

/-- The low layer's share of the high layer. -/
def lowShare : Binary64 := 0.1

/-- The cap of one layer. -/
def get (c : Caps) : Layer → Bitrate
  | .high => c.high
  | .medium => c.medium
  | .low => c.low

/-- The caps that follow from a target for the high layer. -/
def ofHigh (high : Bitrate) : Caps :=
  let high := high.round
  ⟨high, (high * mediumShare).round, (high * lowShare).round⟩

/-- The layer-wise minimum. -/
protected def min (c d : Caps) : Caps :=
  ⟨min c.high d.high, min c.medium d.medium, min c.low d.low⟩

instance : Min Caps := ⟨Caps.min⟩

/-- Equality as numbers, layer by layer. -/
def same (c d : Caps) : Bool := c.high.same d.high && c.medium.same d.medium && c.low.same d.low

/-- What is asked for, layer by layer, where a layer may be left out. -/
structure Targets where
  high : Option Bitrate
  medium : Option Bitrate
  low : Option Bitrate
  deriving DecidableEq

/-- A target between the floor and the ceiling of its layer, in whole bits per second. -/
def bounded (target least most : Bitrate) : Bitrate := (target.clamp least most).round

/-- The caps that targets stand for under the given ceilings. -/
def sanitize (t : Targets) (ceilings : Caps) : Caps :=
  let high := bounded (t.high.getD ceilings.high) floor.high ceilings.high
  let medium := bounded (t.medium.getD (high * mediumShare).round) floor.medium ceilings.medium
  let low := bounded (t.low.getD (high * lowShare).round) floor.low ceilings.low
  let medium := if high ≤ medium then (high * (0.6 : Binary64)).round else medium
  let low := if medium ≤ low then (medium * (0.5 : Binary64)).round else low
  ⟨high, medium, low⟩

/-- The caps for a human reader. -/
def text (c : Caps) : String :=
  "f=" ++ c.high.text ++ " h=" ++ c.medium.text ++ " q=" ++ c.low.text

end Caps

end Simulcast
