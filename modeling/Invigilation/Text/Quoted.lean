import Invigilation.Text.Unprintable

/-!
# Quoted texts in messages

An error message shows a text between double quotes. The quote, the backslash, NUL, tab, line feed
and carriage return have short escapes; every other character that cannot be shown is written as its
code point in braces.
-/

namespace Invigilation.Text

/-- A natural number in lower-case hexadecimal. -/
def hexText (n : Nat) : List Char :=
  Nat.toDigits 16 n

/-- A character inside double quotes. -/
def quoteChar (c : Char) : List Char :=
  if c = '"' then ['\\', '"']
  else if c = '\\' then ['\\', '\\']
  else if c = '\n' then ['\\', 'n']
  else if c = '\r' then ['\\', 'r']
  else if c = '\t' then ['\\', 't']
  else if c.toNat = 0 then ['\\', '0']
  else if isUnprintable c then ['\\', 'u', '\x7b'] ++ hexText c.toNat ++ ['\x7d']
  else [c]

/-- A text between double quotes. -/
def quote (s : String) : String :=
  String.ofList ('"' :: s.toList.flatMap quoteChar ++ ['"'])

end Invigilation.Text
