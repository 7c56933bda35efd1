import Invigilation.Json.Reader.Typed

/-!
# Envelopes: JSON texts inside JSON texts

An object whose first key is `envelopeKey` is an envelope. It has no other member, the value of that
one is a string which holds a JSON text, and the envelope stands for the value of that text. Texts
in envelopes may hold envelopes again, and each may nest containers as deep as any text.

- `parseOpened`: the value of a text, with every envelope opened while the text is read.
- `Json.opened?`: the same for a value that was read before.

A key that is not the first one of its object makes no envelope.
-/

namespace Invigilation.Json

open Text (Bytes)

/-- The key that makes an object an envelope. -/
def envelopeKey : String := "$serde_json::private::RawValue"

/-- The bytes after the first key of an object, if that makes it an envelope. -/
def enterEnvelope? (bs : Bytes) : Option Bytes :=
  match nextMember true bs with
  | .ok (.item bytes) =>
    match readString bytes with
    | .ok (key, rest) => if key = envelopeKey then some rest else none
    | .error _ => none
  | _ => none

/-- Reads the end of an envelope, after its string. -/
def readEnvelopeEnd (bs : Bytes) : Except Fault Bytes :=
  match skipSpaces bs with
  | [] => .error (.peek .endInObject [])
  | b :: rest =>
    if b = Byte.closeBrace then .ok rest
    else if b = Byte.comma then .error (.peek .trailingComma (b :: rest))
    else .error (.peek .trailingCharacters (b :: rest))

/-- Reads the string in an envelope. -/
def readEmbedded : Reader String :=
  readWanted .embedded (· == Byte.quote) fun
    | .str s => .ok s
    | v => .error (.wrongType (.ofScalar v) .embedded)

/-- Reads an envelope after its key, and the text in it by `parseText`. A fault of that text comes
before a fault of what follows the string. -/
def readEnvelope (parseText : Bytes → Except Fault Json) : Reader Json := fun bs => do
  let (_, rest) ← readColon bs
  let (text, rest) ← readEmbedded rest
  let bytes := Text.toBytes text
  let v ← (parseText bytes).mapError (.inside bytes)
  let rest ← readEnvelopeEnd rest
  return (v, rest)

/-- Reads an object, after its opening brace, and opens it if it is an envelope. -/
def readOpened (parseText : Bytes → Except Fault Json) (inner : Reader Json) : Reader Json :=
    fun bs =>
  match enterEnvelope? bs with
  | some rest => readEnvelope parseText rest
  | none => readObject inner bs

/-- The value of a text in which envelopes are nested less than `fuel` deep. -/
def parseNested : Nat → Bytes → Except Fault Json
  | 0, _ => .error (.before .endInValue [])
  | fuel + 1, text => parseBy (readOpened (parseNested fuel)) text

/-- The value of a text with its envelopes opened. The text in an envelope is shorter than the text
around it, so the length of a text bounds how deep they are nested. -/
def parseOpened (text : Bytes) : Except Fault Json :=
  parseNested (text.length + 1) text

/-- Whether members are those of an envelope. -/
def isEnvelope : List (String × Json) → Bool
  | [] => false
  | (key, _) :: _ => key = envelopeKey

/-- What an envelope with these members stands for, if it is well formed. -/
def contents? : List (String × Json) → Option Json
  | [(_, .str text)] => (parseOpened (Text.toBytes text)).toOption
  | _ => none

mutual

/-- The value with its envelopes opened, if all of them are well formed. -/
def opened? : Json → Option Json
  | .arr items => (openedItems? items).map .arr
  | .obj members =>
    if isEnvelope members then contents? members else (openedMembers? members).map .obj
  | .null => some .null
  | .bool b => some (.bool b)
  | .int n => some (.int n)
  | .float x => some (.float x)
  | .str s => some (.str s)

def openedItems? : List Json → Option (List Json)
  | [] => some []
  | v :: rest => do
    let v ← opened? v
    let rest ← openedItems? rest
    return v :: rest

def openedMembers? : List (String × Json) → Option (List (String × Json))
  | [] => some []
  | (key, v) :: rest => do
    let v ← opened? v
    let rest ← openedMembers? rest
    return (key, v) :: rest

end

end Invigilation.Json
