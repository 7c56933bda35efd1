import Invigilation.Json.Basic
import Invigilation.Binary64.Shortest

/-!
# JSON text

- `render`: the compact text of a value, with no blanks between the tokens.
- `renderPretty`: the text over several lines, two blanks for each level.

A string escapes the quote, the backslash and the controls below U+0020 and nothing else. An integer
is written in decimal. A double is written with the fewest digits that read back, positionally when
its leading digit stands for 10^-5 to 10^15 and with an exponent otherwise, and always with a
fraction or an exponent, so that it reads back as a double.
-/

namespace Invigilation.Json

/-- The escape of a control character by its code point, four digits wide. -/
def escapeCode (c : Char) : List Char :=
  let digits := Nat.toDigits 16 c.toNat
  ['\\', 'u'] ++ List.replicate (4 - digits.length) '0' ++ digits

/-- A character inside a string. -/
def escapeChar (c : Char) : List Char :=
  if c = '"' then ['\\', '"']
  else if c = '\\' then ['\\', '\\']
  else if 0x20 ≤ c.toNat then [c]
  else if c = '\n' then ['\\', 'n']
  else if c = '\t' then ['\\', 't']
  else if c = '\r' then ['\\', 'r']
  else if c.toNat = 0x08 then ['\\', 'b']
  else if c.toNat = 0x0C then ['\\', 'f']
  else escapeCode c

/-- A string between its quotes. -/
def renderString (s : String) : List Char :=
  '"' :: s.toList.flatMap escapeChar ++ ['"']

/-- An integer in decimal. -/
def renderInt : Int → List Char
  | .ofNat n => Nat.toDigits 10 n
  | .negSucc n => '-' :: Nat.toDigits 10 (n + 1)

/-- The layout of a decimal with the given digits and the power of ten of its last digit. -/
def layoutDecimal (digits : List Char) (exponent : Int) : List Char :=
  let leading := exponent + (digits.length : Int) - 1
  if -5 ≤ leading ∧ leading < 16 then
    if 0 ≤ exponent then digits ++ List.replicate exponent.toNat '0' ++ ['.', '0']
    else if 0 ≤ leading then
      digits.take (leading + 1).toNat ++ '.' :: digits.drop (leading + 1).toNat
    else ['0', '.'] ++ List.replicate (-leading - 1).toNat '0' ++ digits
  else
    let power := (if leading < 0 then '-' else '+') :: Nat.toDigits 10 leading.natAbs
    match digits with
    | [d] => d :: 'e' :: power
    | d :: more => d :: '.' :: more ++ 'e' :: power
    | [] => []

/-- A finite double. -/
def renderFloat (x : Binary64) : List Char :=
  let sign := if x.isNegative then ['-'] else []
  let m := x.magnitude
  if m.significand = 0 then sign ++ ['0', '.', '0']
  else
    let d := Binary64.shortest m
    sign ++ layoutDecimal (Nat.toDigits 10 d.digits) d.exponent

/-- The texts joined by a separator. -/
def joinWith (separator : List Char) : List (List Char) → List Char
  | [] => []
  | [t] => t
  | t :: rest => t ++ separator ++ joinWith separator rest

mutual

/-- The compact text of a value. -/
def renderChars : Json → List Char
  | .null => ['n', 'u', 'l', 'l']
  | .bool true => ['t', 'r', 'u', 'e']
  | .bool false => ['f', 'a', 'l', 's', 'e']
  | .int n => renderInt n
  | .float x => renderFloat x
  | .str s => renderString s
  | .arr items => '[' :: joinWith [','] (renderItems items) ++ [']']
  | .obj members => '\x7b' :: joinWith [','] (renderMembers members) ++ ['\x7d']

def renderItems : List Json → List (List Char)
  | [] => []
  | v :: rest => renderChars v :: renderItems rest

def renderMembers : List (String × Json) → List (List Char)
  | [] => []
  | (k, v) :: rest => (renderString k ++ ':' :: renderChars v) :: renderMembers rest

end

/-- The compact text of a value. -/
def render (v : Json) : String :=
  String.ofList (renderChars v)

/-- A line break and the indentation of a level. -/
def newLine (level : Nat) : List Char :=
  '\n' :: List.replicate (2 * level) ' '

/-- A container over several lines; an empty one stays on one. -/
def bracketLines (opening closing : Char) (level : Nat) : List (List Char) → List Char
  | [] => [opening, closing]
  | texts =>
    opening :: newLine (level + 1) ++ joinWith (',' :: newLine (level + 1)) texts ++
      newLine level ++ [closing]

mutual

/-- The text of a value that starts at a level of indentation. -/
def prettyChars (level : Nat) : Json → List Char
  | .arr items => bracketLines '[' ']' level (prettyItems (level + 1) items)
  | .obj members => bracketLines '\x7b' '\x7d' level (prettyMembers (level + 1) members)
  | .null => ['n', 'u', 'l', 'l']
  | .bool true => ['t', 'r', 'u', 'e']
  | .bool false => ['f', 'a', 'l', 's', 'e']
  | .int n => renderInt n
  | .float x => renderFloat x
  | .str s => renderString s

def prettyItems (level : Nat) : List Json → List (List Char)
  | [] => []
  | v :: rest => prettyChars level v :: prettyItems level rest

def prettyMembers (level : Nat) : List (String × Json) → List (List Char)
  | [] => []
  | (k, v) :: rest =>
    (renderString k ++ [':', ' '] ++ prettyChars level v) :: prettyMembers level rest

end

/-- The text of a value over several lines. -/
def renderPretty (v : Json) : String :=
  String.ofList (prettyChars 0 v)

end Invigilation.Json
