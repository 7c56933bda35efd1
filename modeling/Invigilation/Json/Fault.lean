import Invigilation.Json.Printer
import Invigilation.Text.Quoted
import Invigilation.Text.Utf8

/-!
# Faults of JSON texts

A fault names its cause and the place where reading stopped, as the number of bytes that were not
looked at. The message turns the place into a line and a column: lines count from one, the column is
the number of bytes of that line that were looked at, so a fault right after a line feed stands in
column 0 of the next line. A string of a text can hold a text of its own; lines and columns of a
fault in there count from where the inner text starts.
-/

namespace Invigilation.Json

open Text (Bytes)

/-- What a text holds where a value of another kind was wanted. -/
inductive Found where
  | null
  | bool (b : Bool)
  | int (n : Int)
  | float (x : Binary64)
  | str (s : String)
  | sequence
  | map
  deriving DecidableEq, Repr

/-- The wording of what was found. -/
def Found.message : Found → String
  | .null => "null"
  | .bool true => "boolean `true`"
  | .bool false => "boolean `false`"
  | .int n => s!"integer `{n}`"
  | .float x => "floating point `" ++ String.ofList (renderFloat x) ++ "`"
  | .str s => "string " ++ Text.quote s
  | .sequence => "sequence"
  | .map => "map"

/-- The kinds of value that a typed reader wants. -/
inductive Wanted where
  | unsigned
  | signed
  | boolean
  | string
  /-- A string that holds a text of its own. -/
  | embedded
  | record (name : String)
  deriving DecidableEq, Repr

/-- The wording of what was wanted. -/
def Wanted.message : Wanted → String
  | .unsigned => "u64"
  | .signed => "i64"
  | .boolean => "a boolean"
  | .string => "a string"
  | .embedded => "raw value"
  | .record name => s!"struct {name}"

/-- Why a text cannot be read. -/
inductive Cause where
  | expectedValue
  | expectedColon
  | expectedCommaOrBrace
  | expectedCommaOrBracket
  | expectedLiteral
  | keyNotString
  | trailingComma
  | trailingCharacters
  | endInValue
  | endInObject
  | endInList
  | endInString
  | tooDeep
  | invalidNumber
  | numberOutOfRange
  | invalidEscape
  | controlCharacter
  | unpairedSurrogate
  | loneSurrogate
  | notUtf8
  | wrongType (found : Found) (wanted : Wanted)
  | outOfRange (found : Found) (wanted : Wanted)
  | repeatedField (name : String)
  deriving DecidableEq, Repr

/-- The wording of a cause. -/
def Cause.message : Cause → String
  | .expectedValue => "expected value"
  | .expectedColon => "expected `:`"
  | .expectedCommaOrBrace => "expected `,` or `\x7d`"
  | .expectedCommaOrBracket => "expected `,` or `]`"
  | .expectedLiteral => "expected ident"
  | .keyNotString => "key must be a string"
  | .trailingComma => "trailing comma"
  | .trailingCharacters => "trailing characters"
  | .endInValue => "EOF while parsing a value"
  | .endInObject => "EOF while parsing an object"
  | .endInList => "EOF while parsing a list"
  | .endInString => "EOF while parsing a string"
  | .tooDeep => "recursion limit exceeded"
  | .invalidNumber => "invalid number"
  | .numberOutOfRange => "number out of range"
  | .invalidEscape => "invalid escape"
  | .controlCharacter => "control character (\\u0000-\\u001F) found while parsing a string"
  | .unpairedSurrogate => "unexpected end of hex escape"
  | .loneSurrogate => "lone leading surrogate in hex escape"
  | .notUtf8 => "invalid unicode code point"
  | .wrongType found wanted => s!"invalid type: {found.message}, expected {wanted.message}"
  | .outOfRange found wanted => s!"invalid value: {found.message}, expected {wanted.message}"
  | .repeatedField name => s!"duplicate field `{name}`"

/-- A cause and the number of bytes that were not looked at. -/
structure Fault where
  cause : Cause
  unread : Nat
  /-- The text inside the text that the count is about, if it is about one. -/
  inner : Option Bytes := none
  deriving DecidableEq, Repr

/-- A fault in front of the bytes `rest`. -/
def Fault.before (cause : Cause) (rest : Bytes) : Fault :=
  { cause, unread := rest.length }

/-- A fault about the first byte of `rest`, which was looked at; at the end of the text there is
none to look at. -/
def Fault.peek (cause : Cause) (rest : Bytes) : Fault :=
  { cause, unread := rest.length - 1 }

/-- A fault of `text`, as a fault of the text that holds it. -/
def Fault.inside (text : Bytes) (fault : Fault) : Fault :=
  { fault with inner := some (fault.inner.getD text) }

/-- A place in a text. -/
structure Position where
  line : Nat
  column : Nat
  deriving DecidableEq, Repr

/-- The line feed. -/
def lineFeed : UInt8 := 0x0A

/-- The place after the bytes of a list. -/
def Position.after (read : Bytes) : Position :=
  ⟨1 + read.count lineFeed, (read.reverse.takeWhile (· ≠ lineFeed)).length⟩

/-- The place of a fault in the text, or in the innermost text that it is about. -/
def Fault.position (text : Bytes) (fault : Fault) : Position :=
  let text := fault.inner.getD text
  Position.after (text.take (text.length - fault.unread))

/-- The wording of a fault of a text. -/
def Fault.message (text : Bytes) (fault : Fault) : String :=
  let place := fault.position text
  s!"{fault.cause.message} at line {place.line} column {place.column}"

end Invigilation.Json
