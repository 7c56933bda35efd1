import Invigilation.Json.Reader.Value

/-!
# Reading JSON from bytes: values of a wanted kind

A value of another kind is a fault that names what was found and what was wanted. It stands after
the value when that is a scalar, and in front of it when it is a container.
-/

namespace Invigilation.Json

open Text (Bytes)

/-- What a scalar is called in a fault. -/
def Found.ofScalar : Json → Found
  | .null => .null
  | .bool b => .bool b
  | .int n => .int n
  | .float x => .float x
  | .str s => .str s
  | .arr _ => .sequence
  | .obj _ => .map

/-- The fault of a value that is not of the wanted kind, from its first byte on. -/
def wrongType (wanted : Wanted) (bs : Bytes) : Fault :=
  match readScalar? bs with
  | some (.ok (v, rest)) => .before (.wrongType (.ofScalar v) wanted) rest
  | some (.error fault) => fault
  | none =>
    match bs with
    | b :: _ =>
      if b = Byte.openBracket then .before (.wrongType .sequence wanted) bs
      else if b = Byte.openBrace then .before (.wrongType .map wanted) bs
      else .peek .expectedValue bs
    | [] => .peek .expectedValue []

/-- Reads a scalar of the wanted kind: `accept` says what a scalar counts as. -/
def readWanted {α : Type} (wanted : Wanted) (starts : UInt8 → Bool)
    (accept : Json → Except Cause α) : Reader α := fun bs =>
  match skipSpaces bs with
  | [] => .error (.peek .endInValue [])
  | b :: rest =>
    if starts b then
      match readScalar? (b :: rest) with
      | some (.ok (v, rest)) =>
        match accept v with
        | .ok a => .ok (a, rest)
        | .error cause => .error (.before cause rest)
      | some (.error fault) => .error fault
      | none => .error (wrongType wanted (b :: rest))
    else .error (wrongType wanted (b :: rest))

/-- Whether a byte starts a number. -/
def startsNumber (b : UInt8) : Bool :=
  b == Byte.minus || Byte.isDigit b

/-- Reads an unsigned integer of 64 bits. -/
def readUnsigned : Reader Nat :=
  readWanted .unsigned startsNumber fun
    | .int n => if 0 ≤ n then .ok n.toNat else .error (.outOfRange (.int n) .unsigned)
    | v => .error (.wrongType (.ofScalar v) .unsigned)

/-- Reads a signed integer of 64 bits. -/
def readSigned : Reader Int :=
  readWanted .signed startsNumber fun
    | .int n => if n < signedBound then .ok n else .error (.outOfRange (.int n) .signed)
    | v => .error (.wrongType (.ofScalar v) .signed)

/-- Reads a truth value. -/
def readBool : Reader Bool :=
  readWanted .boolean (fun b => b == Byte.lowerT || b == Byte.lowerF) fun
    | .bool b => .ok b
    | v => .error (.wrongType (.ofScalar v) .boolean)

/-- Reads a string with its opening quote. -/
def readText : Reader String :=
  readWanted .string (· == Byte.quote) fun
    | .str s => .ok s
    | v => .error (.wrongType (.ofScalar v) .string)

/-- Reads `null` as nothing, and any other value by `read`. -/
def readOptional {α : Type} (read : Reader α) : Reader (Option α) := fun bs =>
  match skipSpaces bs with
  | [] => (read []).map fun r => (some r.1, r.2)
  | b :: rest =>
    if b = Byte.lowerN then (readLiteral nullTail rest).map fun r => (none, r.2)
    else (read (b :: rest)).map fun r => (some r.1, r.2)

end Invigilation.Json
