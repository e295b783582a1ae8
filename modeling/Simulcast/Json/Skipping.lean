import Simulcast.Json.Document

/-!
# Skipping JSON values

Where only the end of a value matters, its contents are passed over. That is more forgiving than
reading them: there is no limit on the nesting, numbers may have any size, and strings need not be
valid UTF-8. A number has to be complete, however, so one that the end of the text cuts off is
malformed.

## Main definitions

* `Json.skip` — the text after a value
-/

namespace Simulcast.Json

/-- An array or object that is still open. -/
inductive Frame where
  | array
  | object

/-- The bracket that closes it. -/
def Frame.close : Frame → UInt8
  | .array => octet ']'
  | .object => octet '\x7d'

/-- Past the digits that come next, of which there has to be one. -/
def skipDigits (s : Octets) : Except Fault Octets :=
  match s with
  | [] => .error .malformed
  | b :: _ => if isDigit b then .ok (s.dropWhile isDigit) else .error .malformed

/-- Past the exponent, if there is one. -/
def skipExponent (s : Octets) : Except Fault Octets :=
  match s with
  | [] => .ok []
  | b :: rest =>
    if b = octet 'e' ∨ b = octet 'E' then
      match rest with
      | [] => .error .malformed
      | c :: more => skipDigits (if c = octet '-' ∨ c = octet '+' then more else rest)
    else .ok s

/-- Past the digits after the point, if there is a point. -/
def skipFraction (s : Octets) : Except Fault Octets :=
  match s with
  | [] => .ok []
  | b :: rest => if b = octet '.' then skipDigits rest else .ok s

/-- Past the digits before the point. -/
def skipWhole (s : Octets) : Except Fault Octets :=
  match s with
  | [] => .error .malformed
  | b :: rest =>
    if b = octet '0' then
      match rest with
      | [] => .ok []
      | c :: _ => if isDigit c then .error .malformed else .ok rest
    else skipDigits s

/-- Past a number. -/
def skipNumber (s : Octets) : Except Fault Octets := do
  let s := match s with
    | [] => []
    | b :: rest => if b = octet '-' then rest else s
  let s ← skipWhole s
  let s ← skipFraction s
  skipExponent s

/-- Past the contents of a string and its closing quote. -/
def skipString : Octets → Except Fault Octets
  | [] => .error .truncated
  | b :: s =>
    if b = octet '"' then .ok s
    else if b = octet '\\' then
      match s with
      | [] => .error .truncated
      | e :: s =>
        if e = octet 'u' then
          match s with
          | a :: b :: c :: d :: s =>
            if (hexUnit? a b c d).isSome then skipString s else .error .malformed
          | _ => .error .truncated
        else if (shortEscape? e).isSome then skipString s
        else .error .malformed
    else if b < 0x20 then .error .malformed
    else skipString s

/-- Past a scalar value. -/
def skipScalar (s : Octets) : Except Fault Octets :=
  match s with
  | [] => .error .truncated
  | b :: rest =>
    if b = octet 'n' then keyword (.ofString "ull") rest
    else if b = octet 't' then keyword (.ofString "rue") rest
    else if b = octet 'f' then keyword (.ofString "alse") rest
    else if b = octet '"' then skipString rest
    else if b = octet '-' ∨ isDigit b then skipNumber s
    else .error .malformed

/-- Past a key and its colon. -/
def skipKey (s : Octets) : Except Fault Octets :=
  match skipBlanks s with
  | [] => .error .truncated
  | b :: rest =>
    if b = octet '"' then do colon (← skipString rest) else .error .malformed

/-- What is expected next while skipping. -/
inductive Expecting where
  /-- A value. -/
  | value
  /-- The first element of the innermost array or object, or its closing bracket. -/
  | firstElement
  /-- A comma, or the closing bracket of the innermost array or object. -/
  | separator

/-- To the next element of an array or object, past its key. -/
def skipToElement (frame : Frame) (s : Octets) : Except Fault Octets :=
  match frame with
  | .array => .ok s
  | .object => skipKey s

/-- Skips one value. The arrays and objects around the place are in `frames`, the innermost one first.
Each step but the last consumes an octet or is followed by one that does, so that a `fuel` of twice
the length of the text never runs out. -/
def skipLoop : (fuel : Nat) → (frames : List Frame) → Expecting → Octets → Except Fault Octets
  | 0, _, _, _ => .error .truncated
  | fuel + 1, frames, .value, s =>
    match skipBlanks s with
    | [] => .error .truncated
    | b :: rest =>
      if b = octet '[' then skipLoop fuel (.array :: frames) .firstElement rest
      else if b = octet '\x7b' then skipLoop fuel (.object :: frames) .firstElement rest
      else do skipLoop fuel frames .separator (← skipScalar (b :: rest))
  | _ + 1, [], _, s => .ok s
  | fuel + 1, frame :: frames, .firstElement, s =>
    match skipBlanks s with
    | [] => .error .truncated
    | b :: rest =>
      if b = frame.close then skipLoop fuel frames .separator rest
      else do skipLoop fuel (frame :: frames) .value (← skipToElement frame (b :: rest))
  | fuel + 1, frame :: frames, .separator, s =>
    match skipBlanks s with
    | [] => .error .truncated
    | b :: rest =>
      if b = octet ',' then do
        skipLoop fuel (frame :: frames) .value (← skipToElement frame rest)
      else if b = frame.close then skipLoop fuel frames .separator rest
      else .error .malformed

/-- The text after the value at its head. -/
def skip (s : Octets) : Except Fault Octets := skipLoop (2 * s.length + 2) [] .value s

/-- The value at the head of a text, with the contents of arrays and objects left out. -/
def shallow (s : Octets) : Read Value :=
  let item (s : Octets) : Read Value := (skip s).map fun rest => (.null, rest)
  match skipBlanks s with
  | [] => .error .truncated
  | b :: rest =>
    if b = octet '[' then (elements item (rest.length + 1) true rest).toRead fun _ => .array []
    else if b = octet '\x7b' then
      (members item (rest.length + 1) true rest).toRead fun _ => .object []
    else scalar (b :: rest)

end Simulcast.Json
