import Invigilation.Json.Fault

/-!
# Reading JSON from bytes: the tokens

A reader takes the bytes that are left and gives what it read with the bytes after it, or a fault.
This module has the bytes of the grammar, the blanks between tokens, the literals, and the steps
from one item of a container to the next.
-/

namespace Invigilation.Json

open Text (Bytes)

/-- A reader of values of type `α`. -/
abbrev Reader (α : Type) := Bytes → Except Fault (α × Bytes)

namespace Byte

@[match_pattern] abbrev quote : UInt8 := 0x22
@[match_pattern] abbrev plus : UInt8 := 0x2B
@[match_pattern] abbrev comma : UInt8 := 0x2C
@[match_pattern] abbrev minus : UInt8 := 0x2D
@[match_pattern] abbrev point : UInt8 := 0x2E
@[match_pattern] abbrev slash : UInt8 := 0x2F
@[match_pattern] abbrev zero : UInt8 := 0x30
@[match_pattern] abbrev colon : UInt8 := 0x3A
@[match_pattern] abbrev upperE : UInt8 := 0x45
@[match_pattern] abbrev openBracket : UInt8 := 0x5B
@[match_pattern] abbrev backslash : UInt8 := 0x5C
@[match_pattern] abbrev closeBracket : UInt8 := 0x5D
@[match_pattern] abbrev lowerB : UInt8 := 0x62
@[match_pattern] abbrev lowerE : UInt8 := 0x65
@[match_pattern] abbrev lowerF : UInt8 := 0x66
@[match_pattern] abbrev lowerN : UInt8 := 0x6E
@[match_pattern] abbrev lowerR : UInt8 := 0x72
@[match_pattern] abbrev lowerT : UInt8 := 0x74
@[match_pattern] abbrev lowerU : UInt8 := 0x75
@[match_pattern] abbrev openBrace : UInt8 := 0x7B
@[match_pattern] abbrev closeBrace : UInt8 := 0x7D

/-- Space, tab, line feed and carriage return separate tokens; no other byte does. -/
def isSpace (b : UInt8) : Bool :=
  b == 0x20 || b == 0x09 || b == 0x0A || b == 0x0D

/-- Whether the byte is one of the digits 0 to 9. -/
def isDigit (b : UInt8) : Bool :=
  0x30 ≤ b && b ≤ 0x39

/-- The value of a digit. -/
def digitValue (b : UInt8) : Nat :=
  b.toNat - 0x30

/-- The value of a hexadecimal digit of either case. -/
def hexValue? (b : UInt8) : Option Nat :=
  if 0x30 ≤ b ∧ b ≤ 0x39 then some (b.toNat - 0x30)
  else if 0x61 ≤ b ∧ b ≤ 0x66 then some (b.toNat - 0x61 + 10)
  else if 0x41 ≤ b ∧ b ≤ 0x46 then some (b.toNat - 0x41 + 10)
  else none

end Byte

/-- The bytes from the next token on. -/
def skipSpaces (bs : Bytes) : Bytes :=
  bs.dropWhile Byte.isSpace

/-- Reads the bytes of a literal. -/
def readLiteral : Bytes → Reader Unit
  | [], bs => .ok ((), bs)
  | _ :: _, [] => .error (.before .endInValue [])
  | e :: es, b :: bs =>
    if b = e then readLiteral es bs else .error (.before .expectedLiteral bs)

/-- The rest of `null` after its first letter. -/
def nullTail : Bytes := [0x75, 0x6C, 0x6C]

/-- The rest of `true` after its first letter. -/
def trueTail : Bytes := [0x72, 0x75, 0x65]

/-- The rest of `false` after its first letter. -/
def falseTail : Bytes := [0x61, 0x6C, 0x73, 0x65]

/-- What follows inside a container: its end, with the bytes after it, or an item, with the bytes
it starts at. -/
inductive Next where
  | finished (rest : Bytes)
  | item (bytes : Bytes)

/-- The step to the next item of a list. -/
def nextItem (first : Bool) (bs : Bytes) : Except Fault Next :=
  match skipSpaces bs with
  | [] => .error (.peek .endInList [])
  | b :: rest =>
    if b = Byte.closeBracket then .ok (.finished rest)
    else if first then .ok (.item (b :: rest))
    else if b = Byte.comma then
      match skipSpaces rest with
      | [] => .error (.peek .endInValue [])
      | c :: more =>
        if c = Byte.closeBracket then .error (.peek .trailingComma (c :: more))
        else .ok (.item (c :: more))
    else .error (.peek .expectedCommaOrBracket (b :: rest))

/-- The step to the next member of an object. The item starts after the opening quote of its key. -/
def nextMember (first : Bool) (bs : Bytes) : Except Fault Next :=
  match skipSpaces bs with
  | [] => .error (.peek .endInObject [])
  | b :: rest =>
    if b = Byte.closeBrace then .ok (.finished rest)
    else if first then
      if b = Byte.quote then .ok (.item rest) else .error (.peek .keyNotString (b :: rest))
    else if b = Byte.comma then
      match skipSpaces rest with
      | [] => .error (.peek .endInValue [])
      | c :: more =>
        if c = Byte.quote then .ok (.item more)
        else if c = Byte.closeBrace then .error (.peek .trailingComma (c :: more))
        else .error (.peek .keyNotString (c :: more))
    else .error (.peek .expectedCommaOrBrace (b :: rest))

/-- Reads the colon between a key and its value. -/
def readColon : Reader Unit := fun bs =>
  match skipSpaces bs with
  | [] => .error (.peek .endInObject [])
  | b :: rest =>
    if b = Byte.colon then .ok ((), rest) else .error (.peek .expectedColon (b :: rest))

/-- Requires that only blanks are left of a text. -/
def readEnd (bs : Bytes) : Except Fault Unit :=
  match skipSpaces bs with
  | [] => .ok ()
  | b :: rest => .error (.peek .trailingCharacters (b :: rest))

end Invigilation.Json
