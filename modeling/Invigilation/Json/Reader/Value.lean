import Invigilation.Json.Reader.Number
import Invigilation.Json.Reader.String

/-!
# Reading JSON from bytes: values

- `readValue depth`: a value in which at most `depth` containers are nested.
- `parse`: the value of a whole text; at most 127 containers may be nested in it.

Both come from `readValueBy` and `parseBy`, which leave open what an object stands for.
-/

namespace Invigilation.Json

open Text (Bytes)

/-- Reads a value that is no container; none when the bytes do not start one. -/
def readScalar? : Bytes → Option (Except Fault (Json × Bytes))
  | [] => none
  | b :: rest =>
    if b = Byte.lowerN then some ((readLiteral nullTail rest).map fun r => (.null, r.2))
    else if b = Byte.lowerT then some ((readLiteral trueTail rest).map fun r => (.bool true, r.2))
    else if b = Byte.lowerF then
      some ((readLiteral falseTail rest).map fun r => (.bool false, r.2))
    else if b = Byte.minus then some (readNumber true rest)
    else if Byte.isDigit b then some (readNumber false (b :: rest))
    else if b = Byte.quote then some ((readString rest).map fun r => (.str r.1, r.2))
    else none

/-- Reads the items of a list, in at most `fuel` steps. -/
def readItems (readItem : Reader Json) (first : Bool) : Nat → Reader (List Json)
  | 0, _ => .error (.before .endInList [])
  | fuel + 1, bs => do
    match ← nextItem first bs with
    | .finished rest => return ([], rest)
    | .item bytes =>
      let (v, rest) ← readItem bytes
      let (vs, rest) ← readItems readItem false fuel rest
      return (v :: vs, rest)

/-- Reads the members of an object, in at most `fuel` steps. -/
def readMembers (readItem : Reader Json) (first : Bool) : Nat → Reader (List (String × Json))
  | 0, _ => .error (.before .endInObject [])
  | fuel + 1, bs => do
    match ← nextMember first bs with
    | .finished rest => return ([], rest)
    | .item bytes =>
      let (key, rest) ← readString bytes
      let (_, rest) ← readColon rest
      let (v, rest) ← readItem rest
      let (more, rest) ← readMembers readItem false fuel rest
      return ((key, v) :: more, rest)

/-- Reads an object as its members, after its opening brace. -/
def readObject (inner : Reader Json) : Reader Json := fun bs => do
  let (members, rest) ← readMembers inner true (bs.length + 1) bs
  return (.obj members, rest)

/-- Reads a value whose items are read by `inner?`; without it no container may start. What follows
the opening brace of an object is read by `object`. -/
def readNode (object : Reader Json → Reader Json) (inner? : Option (Reader Json)) : Reader Json :=
    fun bs =>
  match skipSpaces bs with
  | [] => .error (.peek .endInValue [])
  | b :: rest =>
    match readScalar? (b :: rest) with
    | some result => result
    | none =>
      if b = Byte.openBracket then
        match inner? with
        | none => .error (.peek .tooDeep (b :: rest))
        | some inner => do
          let (items, rest) ← readItems inner true (rest.length + 1) rest
          return (.arr items, rest)
      else if b = Byte.openBrace then
        match inner? with
        | none => .error (.peek .tooDeep (b :: rest))
        | some inner => object inner rest
      else .error (.peek .expectedValue (b :: rest))

/-- Reads a value in which at most `depth` containers are nested, and objects by `object`. -/
def readValueBy (object : Reader Json → Reader Json) : Nat → Reader Json
  | 0 => readNode object none
  | depth + 1 => readNode object (some (readValueBy object depth))

/-- Reads a value in which at most `depth` containers are nested. -/
def readValue (depth : Nat) : Reader Json :=
  readValueBy readObject depth

/-- How many containers may be nested in a text. -/
def maxDepth : Nat := 127

/-- The value of a text whose objects are read by `object`. -/
def parseBy (object : Reader Json → Reader Json) (text : Bytes) : Except Fault Json := do
  let (v, rest) ← readValueBy object maxDepth text
  readEnd rest
  return v

/-- The value of a text. Repeated keys are still there. -/
def parse (text : Bytes) : Except Fault Json :=
  parseBy readObject text

end Invigilation.Json
