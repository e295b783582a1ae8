import Simulcast.Error
import Simulcast.Json.Loose
import Simulcast.Json.Printer
import Simulcast.Json.Skipping
import Simulcast.Layer

/-!
# Bitrates and rids on the wire

The JSON form of the values that messages are made of, and the readers of those that can be a payload
by themselves.

## Main definitions

* `Bitrate.toValue`, `Rid.toValue`, `Binary64.toValue` — as JSON
* `Bitrate.decode` — a bitrate from a payload, NaN if it is none
* `Rid.decode` — a rid from an array of its eight bytes
-/

namespace Simulcast

/-- A bitrate as a whole number. -/
def Bitrate.toValue (r : Bitrate) : Json.Value := .integer r.whole

/-- A number; there is no JSON for numbers that are not finite. -/
def Binary64.toValue (x : Binary64) : Json.Value := if x.isFinite then .float x else .null

/-- A rid as its bytes. -/
def Rid.toValue (r : Rid) : Json.Value := .array (r.octets.map fun b => .integer b.toNat)

/-- A value that has to be the whole payload. -/
def wholePayload {α : Type} (read : Json.Read α) : Except Error α :=
  match read with
  | .error f => .error (.notJson f)
  | .ok (a, rest) => if Json.isAtEnd rest then .ok a else .error (.notJson .malformed)

/-- The bitrate of a payload. Any JSON is one, if need be NaN. -/
def Bitrate.decode (payload : Octets) : Except Error Bitrate :=
  (wholePayload (Json.shallow payload)).map fun v => ⟨v.looseNumber⟩

namespace Rid

open Json (Value Mismatch)

/-- The byte that a value gives. -/
def octetOfValue (v : Value) : Except Mismatch UInt8 :=
  match v with
  | .integer i => if 0 ≤ i ∧ i < powTwo 8 then .ok i.toNat.toUInt8 else .error (.outOfRange i .octet)
  | _ => .error (.wrongShape v.shape .octet)

/-- One element of the array of bytes. -/
def readOctet (s : Octets) : Except Error (UInt8 × Octets) :=
  match Json.opening? s with
  | some shape => .error (.mismatch (.wrongShape shape .octet))
  | none =>
    match Json.scalar (Json.skipBlanks s) with
    | .error f => .error (.notJson f)
    | .ok (v, rest) =>
      match octetOfValue v with
      | .error e => .error (.mismatch e)
      | .ok b => .ok (b, rest)

/-- The closing bracket after the last byte. -/
def readClose (s : Octets) : Except Error Octets :=
  match Json.skipBlanks s with
  | [] => .error (.notJson .truncated)
  | b :: rest => if b = octet ']' then .ok rest else .error (.notJson .malformed)

/-- The last `count` bytes of a rid and the end of the array. Each byte is checked before the next
one is read. -/
def readOctets : (count : Nat) → (isFirst : Bool) → Octets → Except Error (Octets × Octets)
  | 0, _, s => (readClose s).map fun rest => ([], rest)
  | count + 1, isFirst, s =>
    match Json.next (octet ']') isFirst s with
    | .error f => .error (.notJson f)
    | .ok (.done _) => .error (.mismatch (.wrongLength (size - (count + 1)) .rid))
    | .ok (.more s) => do
      let (b, s) ← readOctet s
      let (octets, rest) ← readOctets count false s
      return (b :: octets, rest)

/-- The rid of a payload, which is an array of its bytes. -/
def decode (payload : Octets) : Except Error Rid :=
  match Json.skipBlanks payload with
  | [] => .error (.notJson .truncated)
  | b :: rest =>
    if b = octet '[' then do
      let (octets, rest) ← readOctets size true rest
      if Json.isAtEnd rest then .ok (ofOctets octets) else .error (.notJson .malformed)
    else if b = octet '\x7b' then .error (.mismatch (.wrongShape .object .rid))
    else
      match Json.scalar (b :: rest) with
      | .error f => .error (.notJson f)
      | .ok (v, _) => .error (.mismatch (.wrongShape v.shape .rid))

end Rid

end Simulcast
