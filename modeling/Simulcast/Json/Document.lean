import Simulcast.Json.Lexeme

/-!
# JSON documents

Arrays and objects, and whole documents. A text may hold no more than 127 arrays and objects that
are open at the same time.

Texts come from other participants and are often cut short. A reader that gives up therefore does not
only say why, it also hands out what it had read of the outermost array or object and how the part
in front of it begins, so that a message can be judged by the part that did arrive.

## Main definitions

* `Json.Run` — the elements of an array or object that were read, and how the reading ended
* `Json.value` — a value with a bounded nesting of arrays and objects
* `Json.document` — the value at the head of a text
-/

namespace Simulcast.Json

/-- How the reading of an array or object ended. -/
inductive Ending where
  /-- With its closing bracket; these octets follow. -/
  | closed (rest : Octets)
  /-- With a fault. If it came after the key of a member, that key is given, and if it came inside
  an array or object, the kind of that. -/
  | broken (fault : Fault) (key : Option String) (opening : Option Shape)

/-- The elements of an array or object that were read, first to last. -/
structure Run (α : Type) where
  items : List α
  ending : Ending

namespace Run

variable {α β : Type}

/-- A run that ended with its closing bracket. -/
def closed (rest : Octets) : Run α := ⟨[], .closed rest⟩

/-- A run that ended with a fault. -/
def broken (fault : Fault) (key : Option String) (opening : Option Shape) : Run α :=
  ⟨[], .broken fault key opening⟩

/-- A run with one more element in front. -/
def cons (item : α) (r : Run α) : Run α := ⟨item :: r.items, r.ending⟩

/-- The run as a value, if it was read to its end. -/
def toRead (r : Run α) (f : List α → β) : Read β :=
  match r.ending with
  | .closed rest => .ok (f r.items, rest)
  | .broken fault _ _ => .error fault

end Run

/-- What comes next in an array or object. -/
inductive Next where
  /-- The closing bracket; these octets follow. -/
  | done (rest : Octets)
  /-- Another element, which begins here. -/
  | more (s : Octets)

/-- Goes to the next element. All but the first follow a comma. -/
def next (close : UInt8) (isFirst : Bool) (s : Octets) : Except Fault Next :=
  match skipBlanks s with
  | [] => .error .truncated
  | b :: rest =>
    if b = close then .ok (.done rest)
    else if isFirst then .ok (.more (b :: rest))
    else if b = octet ',' then
      match skipBlanks rest with
      | [] => .error .truncated
      | c :: rest => if c = close then .error .malformed else .ok (.more (c :: rest))
    else .error .malformed

/-- The kind of array or object that a text begins with, if it does. -/
def opening? (s : Octets) : Option Shape :=
  match skipBlanks s with
  | [] => none
  | b :: _ =>
    if b = octet '[' then some .array
    else if b = octet '\x7b' then some .object
    else none

/-- The elements of an array, each read by `item`. No array has more elements than its text has
octets, so that `fuel` never runs out when it is their number. -/
def elements (item : Octets → Read Value) : (fuel : Nat) → (isFirst : Bool) → Octets → Run Value
  | 0, _, _ => .broken .truncated none none
  | fuel + 1, isFirst, s =>
    match next (octet ']') isFirst s with
    | .error f => .broken f none none
    | .ok (.done rest) => .closed rest
    | .ok (.more s) =>
      match item s with
      | .error f => .broken f none (opening? s)
      | .ok (v, s) => (elements item fuel false s).cons v

/-- The key of a member. -/
def key : Octets → Read String
  | [] => .error .truncated
  | b :: s => if b = octet '"' then string s else .error .malformed

/-- The colon after a key. -/
def colon (s : Octets) : Except Fault Octets :=
  match skipBlanks s with
  | [] => .error .truncated
  | b :: s => if b = octet ':' then .ok s else .error .malformed

/-- The members of an object, whose values are read by `item`. -/
def members (item : Octets → Read Value) : (fuel : Nat) → (isFirst : Bool) → Octets → Run Member
  | 0, _, _ => .broken .truncated none none
  | fuel + 1, isFirst, s =>
    match next (octet '\x7d') isFirst s with
    | .error f => .broken f none none
    | .ok (.done rest) => .closed rest
    | .ok (.more s) =>
      match key s with
      | .error f => .broken f none none
      | .ok (k, s) =>
        match colon s with
        | .error f => .broken f (some k) none
        | .ok s =>
          match item s with
          | .error f => .broken f (some k) (opening? s)
          | .ok (v, s) => (members item fuel false s).cons (k, v)

/-- A value, in which at most `depth` arrays and objects are open at the same time. -/
def value : (depth : Nat) → Octets → Read Value
  | 0, s => scalar (skipBlanks s)
  | depth + 1, s =>
    match skipBlanks s with
    | [] => .error .truncated
    | b :: rest =>
      if b = octet '[' then (elements (value depth) (rest.length + 1) true rest).toRead .array
      else if b = octet '\x7b' then
        (members (value depth) (rest.length + 1) true rest).toRead .object
      else scalar (b :: rest)

/-- How many arrays and objects may be open at the same time. -/
def maxDepth : Nat := 127

/-- What was read of a text. -/
inductive Outline where
  /-- A scalar. -/
  | scalar (read : Read Value)
  /-- An array, as far as it goes. -/
  | array (run : Run Value)
  /-- An object, as far as it goes. -/
  | object (run : Run Member)

/-- The value at the head of a text, with the parts that were read if it is broken. -/
def outline (s : Octets) : Outline :=
  match skipBlanks s with
  | [] => .scalar (.error .truncated)
  | b :: rest =>
    if b = octet '[' then .array (elements (value (maxDepth - 1)) (rest.length + 1) true rest)
    else if b = octet '\x7b' then
      .object (members (value (maxDepth - 1)) (rest.length + 1) true rest)
    else .scalar (scalar (b :: rest))

/-- The value at the head of a text. -/
def document (s : Octets) : Read Value := value maxDepth s

/-- Nothing but white space is left. -/
def isAtEnd (s : Octets) : Bool := (skipBlanks s).isEmpty

end Simulcast.Json
