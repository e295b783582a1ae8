import Simulcast.Text.Blank
import Simulcast.Text.Octets

/-!
# Restriction identifiers

Each encoding of a simulcast sender is named by a short identifier, its rid. A rid is eight bytes;
shorter names are padded with spaces. Made from a text, a rid holds ASCII letters and digits only,
every other character being replaced by an underscore.

## Main definitions

* `Rid` — eight bytes
* `Rid.ofString` — the rid of a text
* `Rid.text` — the text of a rid, without its padding
-/

namespace Simulcast

/-- How many bytes a rid has. -/
def Rid.size : Nat := 8

/-- The identifier of an encoding. -/
structure Rid where
  octets : Octets
  length_octets : octets.length = Rid.size
  deriving DecidableEq

namespace Rid

/-- ASCII letters and digits stay, all else becomes an underscore. -/
def cleanChar (c : Char) : Char := if c.isAlphanum then c else '_'

/-- The first eight of some bytes, padded with spaces. -/
def pad (octets : Octets) : Octets :=
  octets.take size ++ List.replicate (size - octets.length) (octet ' ')

theorem length_pad (octets : Octets) : (pad octets).length = size := by
  simp only [pad, List.length_append, List.length_take, List.length_replicate]
  omega

/-- The rid of some bytes. -/
def ofOctets (octets : Octets) : Rid := ⟨pad octets, length_pad octets⟩

/-- The rid of a text: its first eight characters, cleaned. -/
def ofString (s : String) : Rid := ofOctets (s.toList.map fun c => octet (cleanChar c))

/-- The text of a rid without white space around it, empty if the bytes are no text. -/
def text (r : Rid) : String :=
  match Octets.toString? r.octets with
  | some s => String.ofList (Text.trim s.toList)
  | none => ""

/-- The text of a rid inside its name, as it appears in diagnostics. -/
def named (r : Rid) : String := "Rid(" ++ r.text ++ ")"

end Rid

end Simulcast
