/-!
# UTF-8 (RFC 3629)

Lines, bodies and settings arrive as bytes. `scan` runs a small machine over them, one byte at a
time: between characters it is at rest, inside a character it knows how many continuation bytes are
still owed and which range the next one must lie in. Each maximal ill-formed subsequence is one
`none` of the result: the bytes of a character that breaks off, or a single byte that starts none.

- `encode`: the bytes of a list of characters.
- `decode?`: the characters of a well-formed byte sequence.
- `decodeLossy`: the characters of any byte sequence, with U+FFFD for each ill-formed subsequence.
-/

namespace Invigilation.Text

/-- A sequence of bytes. -/
abbrev Bytes := List UInt8

namespace Utf8

/-- The bytes of a list of characters. -/
def encode (cs : List Char) : Bytes :=
  cs.flatMap String.utf8EncodeChar

/-- Where the machine stands between two bytes. -/
inductive State where
  /-- Between characters. -/
  | rest
  /-- Inside a character: `owed + 1` continuation bytes are missing, the next one lies between
  `low` and `high`, and the bits read so far are `bits`. -/
  | inside (owed : Nat) (low high : UInt8) (bits : Nat)
  deriving DecidableEq, Repr

/-- What the first byte of a character does: it is a character of its own, it opens a longer one,
or it can start none. -/
def start (b : UInt8) : List (Option Char) × State :=
  if b < 0x80 then ([some (Char.ofNat b.toNat)], .rest)
  else if b < 0xC2 then ([none], .rest)
  else if b < 0xE0 then ([], .inside 0 0x80 0xBF (b.toNat - 0xC0))
  else if b < 0xF0 then
    ([], .inside 1 (if b = 0xE0 then 0xA0 else 0x80) (if b = 0xED then 0x9F else 0xBF)
      (b.toNat - 0xE0))
  else if b < 0xF5 then
    ([], .inside 2 (if b = 0xF0 then 0x90 else 0x80) (if b = 0xF4 then 0x8F else 0xBF)
      (b.toNat - 0xF0))
  else ([none], .rest)

/-- One byte: the pieces it completes and the state after it. A byte that cannot continue the open
character ends that one as ill-formed and starts afresh. -/
def step : State → UInt8 → List (Option Char) × State
  | .rest, b => start b
  | .inside owed low high bits, b =>
    if low ≤ b ∧ b ≤ high then
      let bits := bits * 64 + (b.toNat - 0x80)
      match owed with
      | 0 => ([some (Char.ofNat bits)], .rest)
      | more + 1 => ([], .inside more 0x80 0xBF bits)
    else
      let (pieces, after) := start b
      (none :: pieces, after)

/-- The pieces of a byte sequence read from a state: characters, and `none` for each maximal
ill-formed subsequence. -/
def scan : State → Bytes → List (Option Char)
  | .rest, [] => []
  | .inside .., [] => [none]
  | s, b :: bs => (step s b).1 ++ scan (step s b).2 bs

/-- The characters of a byte sequence, if all of it is well-formed. -/
def decode? (bs : Bytes) : Option (List Char) :=
  (scan .rest bs).mapM id

/-- The characters of a byte sequence, with U+FFFD in the place of each ill-formed subsequence. -/
def decodeLossy (bs : Bytes) : List Char :=
  (scan .rest bs).map (·.getD '\uFFFD')

end Utf8

/-- The UTF-8 bytes of a text. -/
def toBytes (s : String) : Bytes :=
  Utf8.encode s.toList

/-- The text that a byte sequence spells, if it is UTF-8. -/
def ofBytes? (bs : Bytes) : Option String :=
  (Utf8.decode? bs).map String.ofList

/-- The text that a byte sequence spells, with U+FFFD for what is not UTF-8. -/
def ofBytesLossy (bs : Bytes) : String :=
  String.ofList (Utf8.decodeLossy bs)

end Invigilation.Text
