import Invigilation.Json.Reader.Basic

/-!
# Reading JSON from bytes: values nobody wants

The value of an unknown member is only checked for its syntax. Containers may be nested to any
depth, numbers may have any size, and strings may hold any bytes and any code units; `skipFrom`
keeps the open containers in a list instead of calling itself.
-/

namespace Invigilation.Json

open Text (Bytes)

/-- Skips an escape, after its backslash. -/
def skipEscape : Bytes → Except Fault Bytes
  | [] => .error (.before .endInString [])
  | b :: rest =>
    if b = Byte.lowerU then
      match rest with
      | a :: b :: c :: d :: more =>
        if [a, b, c, d].all (Byte.hexValue? · |>.isSome) then .ok more
        else .error (.before .invalidEscape more)
      | _ => .error (.before .endInString [])
    else if [Byte.quote, Byte.backslash, Byte.slash, Byte.lowerB, Byte.lowerF, Byte.lowerN,
        Byte.lowerR, Byte.lowerT].contains b then .ok rest
    else .error (.before .invalidEscape rest)

/-- Skips the contents of a string and its closing quote, in at most `fuel` pieces. -/
def skipContents : Nat → Bytes → Except Fault Bytes
  | 0, _ => .error (.before .endInString [])
  | _ + 1, [] => .error (.before .endInString [])
  | fuel + 1, b :: rest =>
    if b = Byte.quote then .ok rest
    else if b = Byte.backslash then do
      let rest ← skipEscape rest
      skipContents fuel rest
    else if b < 0x20 then .error (.before .controlCharacter (b :: rest))
    else skipContents fuel rest

/-- Skips a string, after its opening quote. -/
def skipString (bs : Bytes) : Except Fault Bytes :=
  skipContents (bs.length + 1) bs

/-- Skips an exponent, after its letter. -/
def skipExponent (bs : Bytes) : Except Fault Bytes :=
  let bs := match bs with
    | Byte.plus :: rest | Byte.minus :: rest => rest
    | bs => bs
  match bs with
  | [] => .error (.before .invalidNumber [])
  | b :: rest =>
    if Byte.isDigit b then .ok (rest.dropWhile Byte.isDigit)
    else .error (.before .invalidNumber rest)

/-- Skips an exponent, if one follows. -/
def skipOptionalExponent : Bytes → Except Fault Bytes
  | [] => .ok []
  | b :: rest =>
    if b = Byte.lowerE ∨ b = Byte.upperE then skipExponent rest else .ok (b :: rest)

/-- Skips what follows the integer digits of a number. -/
def skipAfterInteger : Bytes → Except Fault Bytes
  | Byte.point :: rest =>
    match rest with
    | [] => .error (.peek .invalidNumber [])
    | b :: more =>
      if Byte.isDigit b then skipOptionalExponent (more.dropWhile Byte.isDigit)
      else .error (.peek .invalidNumber (b :: more))
  | bs => skipOptionalExponent bs

/-- Skips a number, after its minus sign if it has one. -/
def skipNumber : Bytes → Except Fault Bytes
  | [] => .error (.before .invalidNumber [])
  | b :: rest =>
    if b = Byte.zero then
      match rest with
      | c :: more =>
        if Byte.isDigit c then .error (.peek .invalidNumber (c :: more))
        else skipAfterInteger (c :: more)
      | [] => .ok []
    else if Byte.isDigit b then skipAfterInteger (rest.dropWhile Byte.isDigit)
    else .error (.before .invalidNumber rest)

/-- Skips a value that is no container. -/
def skipScalar : Bytes → Except Fault Bytes
  | [] => .error (.peek .endInValue [])
  | b :: rest =>
    if b = Byte.lowerN then (readLiteral nullTail rest).map (·.2)
    else if b = Byte.lowerT then (readLiteral trueTail rest).map (·.2)
    else if b = Byte.lowerF then (readLiteral falseTail rest).map (·.2)
    else if b = Byte.minus then skipNumber rest
    else if Byte.isDigit b then skipNumber (b :: rest)
    else if b = Byte.quote then skipString rest
    else .error (.peek .expectedValue (b :: rest))

/-- The kinds of container. -/
inductive Container where
  | list
  | object
  deriving DecidableEq, Repr

namespace Container

/-- The container that a byte opens. -/
def opened? (b : UInt8) : Option Container :=
  if b = Byte.openBracket then some .list
  else if b = Byte.openBrace then some .object
  else none

/-- The byte that ends a container. -/
def closing : Container → UInt8
  | .list => Byte.closeBracket
  | .object => Byte.closeBrace

/-- The cause of a text that ends inside a container. -/
def endCause : Container → Cause
  | .list => .endInList
  | .object => .endInObject

/-- The cause of an item that nothing separates from the one before it. -/
def separatorCause : Container → Cause
  | .list => .expectedCommaOrBracket
  | .object => .expectedCommaOrBrace

/-- The step to the value of the next item: in an object the key and its colon are skipped. -/
def enter : Container → Bytes → Except Fault Bytes
  | .list, bs => .ok bs
  | .object, bs =>
    match skipSpaces bs with
    | [] => .error (.peek .endInObject [])
    | b :: rest =>
      if b = Byte.quote then do
        let rest ← skipString rest
        let (_, rest) ← readColon rest
        return rest
      else .error (.peek .keyNotString (b :: rest))

end Container

/-- Where skipping stands: in front of a value, or behind one. -/
inductive SkipPoint where
  | ahead
  | behind
  deriving DecidableEq, Repr

/-- Skips the value that starts, or the containers that are open, in at most `fuel` steps. The list
holds the open containers, the innermost first. -/
def skipFrom : Nat → SkipPoint → List Container → Bytes → Except Fault Bytes
  | _, .behind, [], bs => .ok bs
  | 0, _, _, _ => .error (.before .endInValue [])
  | fuel + 1, .behind, c :: outer, bs =>
    match skipSpaces bs with
    | [] => .error (.peek c.endCause [])
    | b :: rest =>
      if b = Byte.comma then do
        let rest ← c.enter rest
        skipFrom fuel .ahead (c :: outer) rest
      else if b = c.closing then skipFrom fuel .behind outer rest
      else .error (.peek c.separatorCause (b :: rest))
  | fuel + 1, .ahead, outer, bs =>
    match skipSpaces bs with
    | [] => .error (.peek .endInValue [])
    | b :: rest =>
      match Container.opened? b with
      | none => do
        let rest ← skipScalar (b :: rest)
        skipFrom fuel .behind outer rest
      | some c =>
        match skipSpaces rest with
        | [] => .error (.peek c.endCause [])
        | d :: more =>
          if d = c.closing then skipFrom fuel .behind outer more
          else do
            let rest ← c.enter (d :: more)
            skipFrom fuel .ahead (c :: outer) rest

/-- Skips a value. Every two steps take at least a byte. -/
def skipValue (bs : Bytes) : Except Fault Bytes :=
  skipFrom (2 * bs.length + 2) .ahead [] bs

end Invigilation.Json
