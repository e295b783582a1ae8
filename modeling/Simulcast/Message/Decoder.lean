import Simulcast.Error
import Simulcast.Json.Document
import Simulcast.Json.Loose
import Simulcast.Message.Encoder

/-!
# Reading control messages

Messages come from other participants, so a reader takes what it can. Unknown members are ignored, a
known one that is missing has a default, and a value of the wrong kind counts as no value: NaN for a
number, the empty text for a name. Only the kind and the version of a message have to be right, and
no field may be given twice.

The kind is looked at as soon as it is read, so a message of an unknown kind is reported as that even
when its text goes wrong later on.

## Main definitions

* `Message.ofMembers`, `Message.ofItems` — the message of an object or an array
* `Message.decode` — the message of a payload
-/

namespace Simulcast

namespace Message

open Json (Value Member Mismatch Shape)

/-- The kind that a value names. -/
def Kind.ofValue (v : Value) : Except Mismatch Kind :=
  match v with
  | .string s =>
    match Kind.ofName? s with
    | some kind => .ok kind
    | none => .error (.unknownKind s)
  | _ => .error (.wrongShape v.shape .kind)

/-- The version that a value gives. -/
def versionOfValue (v : Value) : Except Mismatch UInt32 :=
  match v with
  | .integer i =>
    if 0 ≤ i ∧ i < powTwo 32 then .ok i.toNat.toUInt32 else .error (.outOfRange i .version)
  | _ => .error (.wrongShape v.shape .version)

/-- The fields of a message: a value for each name, or none. -/
abbrev Fields := String → Option Value

/-- The version among the fields, the one spoken here if it is missing. -/
def Fields.version (f : Fields) : Except Mismatch UInt32 :=
  match f "version" with
  | none => .ok protocolVersion
  | some v => versionOfValue v

/-- The bitrate in a field; `null` counts as a field that is missing. -/
def Fields.target (f : Fields) (name : String) : Option Bitrate :=
  match f name with
  | none | some .null => none
  | some v => some ⟨v.looseNumber⟩

/-- The text in a field. -/
def Fields.text (f : Fields) (name : String) : String := ((f name).map (·.looseString)).getD ""

/-- A request with these fields. -/
def requestOfFields (f : Fields) (version : UInt32) : CapRequest where
  version := version
  targets := ⟨f.target "targetBitrateHigh", f.target "targetBitrateMed", f.target "targetBitrateLow"⟩
  reason := .ofName (f.text "reason")
  lossRate := ((f "lossRate").map fun v => clampLoss v.looseNumber).getD 0
  identity := f.text "senderIdentity"

/-- An acknowledgement with these fields. -/
def ackOfFields (f : Fields) (version : UInt32) (high : Value) : CapAck where
  version := version
  appliedHigh := ⟨high.looseNumber⟩
  identity := f.text "identity"

/-! ### Objects -/

/-- The first member of a name. -/
def field (members : List Member) : Fields := fun name =>
  (members.find? fun m => m.1 == name).map (·.2)

/-- The kind of message with these members, of which exactly one names the kind. -/
def kindOfMembers (members : List Member) : Except Mismatch Kind :=
  match members.filter fun m => m.1 == kindField with
  | [] => .error (.missing kindField)
  | [m] => Kind.ofValue m.2
  | m :: _ :: _ => do
    let _ ← Kind.ofValue m.2
    .error (.repeated kindField)

/-- Goes through the members in order: no known field may come twice, and the version has to be
one. -/
def checkMembers (known : List String) : (seen : List String) → List Member → Except Mismatch Unit
  | _, [] => .ok ()
  | seen, (name, v) :: members =>
    if name ∉ known then checkMembers known seen members
    else if name ∈ seen then .error (.repeated name)
    else if name = "version" then
      match versionOfValue v with
      | .error e => .error e
      | .ok _ => checkMembers known (name :: seen) members
    else checkMembers known (name :: seen) members

/-- The message of an object. -/
def ofMembers (members : List Member) : Except Mismatch Message := do
  let f := field members
  match ← kindOfMembers members with
  | .request =>
    checkMembers requestFields [] members
    return .request (requestOfFields f (← f.version))
  | .ack =>
    checkMembers ackFields [] members
    match f "appliedBitrateHigh" with
    | none => .error (.missing "appliedBitrateHigh")
    | some high => return .ack (ackOfFields f (← f.version) high)

/-! ### Arrays -/

/-- The values of an array as the fields of these names, in order. -/
def positional (names : List String) (values : List Value) : Fields := field (names.zip values)

/-- No more values than fields. -/
def checkLength (names : List String) (values : List Value) : Except Mismatch Unit :=
  if values.length ≤ names.length then .ok ()
  else .error (.wrongLength values.length (.elements names.length))

/-- The message of an array, which holds the kind and then the fields in order. -/
def ofItems : List Value → Except Mismatch Message
  | [] => .error (.missing kindField)
  | kind :: values => do
    match ← Kind.ofValue kind with
    | .request =>
      let f := positional requestFields values
      let version ← f.version
      checkLength requestFields values
      return .request (requestOfFields f version)
    | .ack =>
      let f := positional ackFields values
      let version ← f.version
      match f "appliedBitrateHigh" with
      | none => .error (.wrongLength 1 .ack)
      | some high =>
        checkLength ackFields values
        return .ack (ackOfFields f version high)

/-! ### Payloads -/

/-- The mismatch that comes before the fault of a broken object, if its kind was read and is wrong,
or if a second kind was about to be read. -/
def brokenObject? (members : List Member) (key : Option String) (opening : Option Shape) :
    Option Mismatch :=
  match kindOfMembers members with
  | .error (.missing _) =>
    if key = some kindField then opening.map fun shape => .wrongShape shape .kind else none
  | .error e => some e
  | .ok _ => if key = some kindField then some (.repeated kindField) else none

/-- The mismatch that comes before the fault of a broken array. -/
def brokenArray? (items : List Value) (opening : Option Shape) : Option Mismatch :=
  match items with
  | [] => opening.map fun shape => .wrongShape shape .kind
  | kind :: _ =>
    match Kind.ofValue kind with
    | .error e => some e
    | .ok _ => none

/-- An error for a text that broke off with a fault. -/
def brokenError (cause : Option Mismatch) (fault : Json.Fault) : Error :=
  match cause with
  | some m => .mismatch m
  | none => .notJson fault

/-- The last steps after the message was read: nothing may follow it, and then its version has to be
the one spoken here. -/
def accept (read : Except Mismatch Message) (rest : Octets) : Except Error Message :=
  match read with
  | .error e => .error (.mismatch e)
  | .ok m =>
    if Json.isAtEnd rest then
      if m.version = protocolVersion then .ok m else .error (.unsupportedVersion m.version)
    else .error (.notJson .malformed)

/-- The message of a payload. -/
def decode (payload : Octets) : Except Error Message :=
  match Json.outline payload with
  | .scalar (.error f) => .error (.notJson f)
  | .scalar (.ok (v, _)) => .error (.mismatch (.wrongShape v.shape .message))
  | .object run =>
    match run.ending with
    | .closed rest => accept (ofMembers run.items) rest
    | .broken fault key opening => .error (brokenError (brokenObject? run.items key opening) fault)
  | .array run =>
    match run.ending with
    | .closed rest => accept (ofItems run.items) rest
    | .broken fault _ opening => .error (brokenError (brokenArray? run.items opening) fault)

end Message

end Simulcast
