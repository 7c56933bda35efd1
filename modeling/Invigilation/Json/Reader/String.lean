import Invigilation.Json.Reader.Basic

/-!
# Reading JSON from bytes: strings

A string ends at the first quote that no backslash escapes. Escapes by code unit must pair their
surrogates. The bytes that are not escaped are taken as they are, and the whole must be UTF-8.
-/

namespace Invigilation.Json

open Text (Bytes)

/-- Reads a code unit of four hexadecimal digits. -/
def readCodeUnit : Reader Nat
  | a :: b :: c :: d :: rest =>
    match Byte.hexValue? a, Byte.hexValue? b, Byte.hexValue? c, Byte.hexValue? d with
    | some a, some b, some c, some d => .ok (((a * 16 + b) * 16 + c) * 16 + d, rest)
    | _, _, _, _ => .error (.before .invalidEscape rest)
  | _ => .error (.before .endInString [])

/-- Whether a code unit is the first of a surrogate pair. -/
def isHighSurrogate (n : Nat) : Bool :=
  0xD800 ≤ n && n ≤ 0xDBFF

/-- Whether a code unit is the second of a surrogate pair. -/
def isLowSurrogate (n : Nat) : Bool :=
  0xDC00 ≤ n && n ≤ 0xDFFF

/-- Reads the second half of a pair, from its backslash on. -/
def readLowSurrogate : Reader Nat
  | [] => .error (.before .endInString [])
  | b :: rest =>
    if b ≠ Byte.backslash then .error (.before .unpairedSurrogate rest)
    else
      match rest with
      | [] => .error (.before .endInString [])
      | c :: rest =>
        if c ≠ Byte.lowerU then .error (.before .unpairedSurrogate rest)
        else
          match readCodeUnit rest with
          | .error fault => .error fault
          | .ok (low, rest) =>
            if isLowSurrogate low then .ok (low, rest) else .error (.before .loneSurrogate rest)

/-- Reads the code point of one or two code units, after the first `u`. -/
def readCodePoint : Reader Nat := fun bs => do
  let (n, rest) ← readCodeUnit bs
  if isLowSurrogate n then .error (.before .loneSurrogate rest)
  else if isHighSurrogate n then
    let (low, rest) ← readLowSurrogate rest
    return (0x10000 + (n - 0xD800) * 0x400 + (low - 0xDC00), rest)
  else return (n, rest)

/-- Reads an escape, after its backslash, as the bytes of its character. -/
def readEscape : Reader Bytes
  | [] => .error (.before .endInString [])
  | Byte.quote :: rest => .ok ([0x22], rest)
  | Byte.backslash :: rest => .ok ([0x5C], rest)
  | Byte.slash :: rest => .ok ([0x2F], rest)
  | Byte.lowerB :: rest => .ok ([0x08], rest)
  | Byte.lowerF :: rest => .ok ([0x0C], rest)
  | Byte.lowerN :: rest => .ok ([0x0A], rest)
  | Byte.lowerR :: rest => .ok ([0x0D], rest)
  | Byte.lowerT :: rest => .ok ([0x09], rest)
  | Byte.lowerU :: rest => do
    let (n, rest) ← readCodePoint rest
    return (String.utf8EncodeChar (Char.ofNat n), rest)
  | _ :: rest => .error (.before .invalidEscape rest)

/-- Reads the contents of a string up to and with its closing quote, in at most `fuel` pieces. -/
def readContents : Nat → Reader Bytes
  | 0, _ => .error (.before .endInString [])
  | _ + 1, [] => .error (.before .endInString [])
  | fuel + 1, b :: rest =>
    if b = Byte.quote then .ok ([], rest)
    else if b = Byte.backslash then do
      let (piece, rest) ← readEscape rest
      let (more, rest) ← readContents fuel rest
      return (piece ++ more, rest)
    else if b < 0x20 then .error (.before .controlCharacter rest)
    else do
      let (more, rest) ← readContents fuel rest
      return (b :: more, rest)

/-- Reads a string, after its opening quote. Each piece takes at least a byte, so the bytes bound
the pieces. -/
def readString : Reader String := fun bs => do
  let (contents, rest) ← readContents (bs.length + 1) bs
  match Text.ofBytes? contents with
  | some s => return (s, rest)
  | none => .error (.before .notUtf8 rest)

end Invigilation.Json
