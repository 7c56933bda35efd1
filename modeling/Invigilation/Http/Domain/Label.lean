import Invigilation.Http.Domain.Character
import Invigilation.Http.Domain.Punycode
import Invigilation.Text.Composition
import Invigilation.Text.Direction
import Invigilation.Text.Joining

/-!
# Labels of domains

A label that starts with `xn--` is the encoded form of another one, which it shows. A shown label
does not start with a mark, its joiners stand where they have an effect, and the label of an encoded
form is in the spelling that encoding would start from. If a domain has letters that are written
from right to left, each of its labels goes in one direction (RFC 5893).

- `shown?`: the characters that a label shows, if it is well formed by itself.
- `isOneWay`: whether a label goes in one direction.
-/

namespace Invigilation.Http.Domain

open Text (Direction direction)

/-- Whether a character is outside ASCII. -/
def isForeign (c : Char) : Bool :=
  0x80 ≤ c.toNat

/-- How an encoded label starts. -/
def encodedStart : List Char := ['x', 'n', '-', '-']

/-- The greatest length of an encoded label, without its start. -/
def maxEncoded : Nat := 2000

/-- The greatest length of a label that has to be encoded. -/
def maxForeign : Nat := 1000

/-! ## Joiners -/

/-- Whether a joiner has an effect between the characters in front of it, the last one first, and
those behind it: after a sign that takes a letter's vowel, or, when it keeps letters apart, between
two that would join. -/
def joinerFits (before : List Char) (c : Char) (after : List Char) : Bool :=
  let nearest (cs : List Char) := cs.find? (Text.joining · ≠ .transparent)
  before.head?.any (Text.combiningClass · = Text.viramaClass) ||
    (c == '\u200C' && (nearest before).any Text.joinsForward &&
      (nearest after).any Text.joinsBackward)

/-- Whether every joiner of a text has an effect, with the characters in front of the text, the last
one first. -/
def joinersFit (before : List Char) : List Char → Bool
  | [] => true
  | c :: rest => (!isJoiner c || joinerFits before c rest) && joinersFit (c :: before) rest

/-! ## Directions -/

/-- Whether a character is written from right to left. -/
def isRightToLeft (c : Char) : Bool :=
  [Direction.right, .arabic, .arabicNumber].contains (direction c)

/-- The directions that stand in both kinds of labels. -/
def sharedDirections : List Direction :=
  [.number, .numberSign, .separator, .numberMark, .neutral, .boundary, .mark]

/-- Whether the last of some directions, not counting marks, is one of `ends`. -/
def endsWith (ends : List Direction) (ds : List Direction) : Bool :=
  (ds.reverse.find? (· ≠ .mark)).any ends.contains

/-- Whether a label goes in one direction: that of its first character, with an end that has one,
and with numbers of one kind when it is written from right to left. -/
def isOneWay (label : List Char) : Bool :=
  let ds := label.map direction
  match ds.head? with
  | none => true
  | some .left =>
    ds.all (Direction.left :: sharedDirections).contains && endsWith [.left, .number] ds
  | some .right | some .arabic =>
    ds.all ([Direction.right, .arabic, .arabicNumber] ++ sharedDirections).contains &&
      endsWith [.right, .arabic, .number, .arabicNumber] ds &&
      !(ds.contains .number && ds.contains .arabicNumber)
  | some _ => false

/-! ## Labels by themselves -/

/-- Whether a shown label is well formed by itself. -/
def isShown (label : List Char) : Bool :=
  !label.head?.any Text.isMark && joinersFit [] label

/-- The label that an encoded one shows, without its start. It has characters outside ASCII, and all
of them are kept as they are. -/
def decoded? (digits : List Char) : Option (List Char) :=
  if digits.any isForeign || maxEncoded < digits.length then none
  else
    match Punycode.decode? digits with
    | none => none
    | some label =>
      if label.any isForeign && label.all (fate · = .kept) && Text.compose label = label then
        some label
      else none

/-- The characters that a label shows, if it is well formed by itself. -/
def shown? (label : List Char) : Option (List Char) :=
  let shown :=
    if encodedStart.isPrefixOf label then decoded? (label.drop encodedStart.length)
    else if label.any isForeign && maxForeign < label.length then none
    else some label
  shown.filter isShown

end Invigilation.Http.Domain
